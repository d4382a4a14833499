import Mathlib.Data.Finmap
import Mathlib.Data.Nat.Digits.Defs
import Mathlib.Data.Rat.Floor

/-!
# Values of Go

A Go string is a sequence of bytes, and its length and its comparisons are
those of the bytes. Text literals stand for their UTF-8 encoding. Shifts of
unsigned integers drop the bits that leave the type, by whatever amount they
shift. Floating-point numbers are exact rationals.
-/

namespace Sysmon.Go

abbrev GoString := List UInt8

/-- `map[string]V`. -/
abbrev GoMap (Value : Type) := Finmap fun _ : GoString => Value

/-- The string of a literal in the source. -/
def text (literal : String) : GoString := literal.toUTF8.data.toList

/-- The verb `%d` on an unsigned integer. -/
def formatDecimal (number : ℕ) : GoString :=
  if number = 0 then text "0"
  else (Nat.digits 10 number).reverse.map fun digit => UInt8.ofNat (48 + digit)

def contains (s substr : GoString) : Bool := decide (substr <:+: s)

/-- `value << count` on `uint64`. -/
def shiftLeft (value : UInt64) (count : ℕ) : UInt64 := UInt64.ofNat (value.toNat <<< count)

/-- `int(x)` of a floating-point number: its fraction is dropped. -/
def truncate (x : ℚ) : ℤ := if 0 ≤ x then ⌊x⌋ else ⌈x⌉

theorem truncate_natCast_div (number divisor : ℕ) :
    truncate (number / divisor) = (number / divisor : ℕ) := by
  have nonneg : (0 : ℚ) ≤ number / divisor := div_nonneg (Nat.cast_nonneg _) (Nat.cast_nonneg _)
  rw [truncate, if_pos nonneg, Rat.floor_natCast_div_natCast, Int.natCast_ediv]

end Sysmon.Go
