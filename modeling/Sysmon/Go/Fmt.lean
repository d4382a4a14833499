import Mathlib.Data.Nat.Digits.Lemmas
import Sysmon.Go.Strconv
import Sysmon.Library.Rounding

/-!
# Package `fmt`

This file embeds the verb `%.1f` on numbers that are not negative, and the
widths of verbs, which count the characters of the text and not its bytes. A
number is rounded to the nearest tenth as an exact rational, to the even one if
there is no nearest.
-/

namespace Sysmon.Go

open Rounding

abbrev space : UInt8 := 32

section Fixed

/-- The tenths that `%.1f` shows. -/
def roundedTenths (number : ℚ) : ℕ := (roundHalfEven (number * 10)).toNat

/-- The verb `%.1f` on a number that is not negative. -/
def formatFixed1 (number : ℚ) : GoString :=
  formatDecimal (roundedTenths number / 10) ++
    (text "." ++ formatDecimal (roundedTenths number % 10))

/-- The number that digits with an optional fraction show. -/
def readDecimal (s : GoString) : ℚ :=
  let fraction := (s.dropWhile isDigit).drop (text ".").length
  decimalValue (s.takeWhile isDigit) + decimalValue fraction / 10 ^ fraction.length

theorem length_formatDecimal_of_lt {digit : ℕ} (small : digit < 10) :
    (formatDecimal digit).length = 1 := by
  have single : ∀ digit < 10, (formatDecimal digit).length = 1 := by decide +kernel
  exact single digit small

theorem readDecimal_formatDecimal (number : ℕ) : readDecimal (formatDecimal number) = number := by
  rcases span_formatDecimal number [] (by rfl) with ⟨whole, fraction⟩
  rw [List.append_nil] at whole fraction
  have empty : decimalValue [] = 0 := rfl
  simp only [readDecimal, whole, fraction, List.drop_nil, decimalValue_formatDecimal, empty,
    Nat.cast_zero, zero_div, add_zero]

/-- What `%.1f` shows is the number rounded to tenths. -/
theorem readDecimal_formatFixed1 (number : ℚ) :
    readDecimal (formatFixed1 number) = roundedTenths number / 10 := by
  rcases span_formatDecimal (roundedTenths number / 10)
    (text "." ++ formatDecimal (roundedTenths number % 10)) (by rfl) with ⟨whole, fraction⟩
  have single := length_formatDecimal_of_lt (Nat.mod_lt (roundedTenths number) (Nat.succ_pos 9))
  have parts : ((roundedTenths number : ℕ) : ℚ) =
      10 * (roundedTenths number / 10 : ℕ) + (roundedTenths number % 10 : ℕ) := by
    exact_mod_cast (Nat.div_add_mod (roundedTenths number) 10).symm
  rw [formatFixed1, readDecimal, whole, fraction, List.drop_left, single,
    decimalValue_formatDecimal, decimalValue_formatDecimal, parts]
  ring

theorem roundedTenths_mono {number other : ℚ} (ordered : number ≤ other) :
    roundedTenths number ≤ roundedTenths other := by
  apply Int.toNat_le_toNat
  apply roundHalfEven_mono
  linarith

theorem le_roundedTenths {number : ℚ} {bound : ℕ} (reaches : (bound : ℚ) ≤ number) :
    10 * bound ≤ roundedTenths number := by
  have rounded : ((10 * bound : ℕ) : ℤ) ≤ roundHalfEven (number * 10) := by
    apply le_roundHalfEven
    push_cast
    linarith
  rw [roundedTenths]
  omega

theorem roundedTenths_le {number : ℚ} {bound : ℕ} (reaches : number ≤ (bound : ℚ)) :
    roundedTenths number ≤ 10 * bound := by
  have rounded : roundHalfEven (number * 10) ≤ ((10 * bound : ℕ) : ℤ) := by
    apply roundHalfEven_le
    push_cast
    linarith
  exact Int.toNat_le.mpr rounded

/-- The tenths that are shown are at most half a tenth away. -/
theorem abs_roundedTenths_sub_le {number : ℚ} (nonneg : 0 ≤ number) :
    |(roundedTenths number : ℚ) / 10 - number| ≤ 1 / 20 := by
  have rounded := abs_roundHalfEven_sub_le (number * 10)
  have isNat : ((roundedTenths number : ℕ) : ℤ) = roundHalfEven (number * 10) := by
    apply Int.toNat_of_nonneg
    apply le_roundHalfEven
    push_cast
    linarith
  have isNatCast : (roundedTenths number : ℚ) = roundHalfEven (number * 10) := by
    rw [← isNat, Int.cast_natCast]
  rw [abs_le] at rounded ⊢
  rw [isNatCast]
  constructor <;> linarith

/-- An even number of tenths is shown from the midpoint below it on. -/
theorem le_roundedTenths_iff {number : ℚ} {tenths : ℕ} (positive : 0 < tenths)
    (even : Even tenths) : tenths ≤ roundedTenths number ↔ (tenths : ℚ) - 1 / 2 ≤ number * 10 := by
  have evenCast : Even (tenths : ℤ) := by exact_mod_cast even
  have rounded : (tenths : ℤ) ≤ roundHalfEven (number * 10) ↔
      (tenths : ℚ) - 1 / 2 ≤ number * 10 := by
    rw [le_roundHalfEven_iff, if_pos evenCast, Int.cast_natCast]
  rw [← rounded, roundedTenths]
  omega

end Fixed

section Width

/-- The bounds of the bytes that continue a character after its first byte. -/
def acceptRanges (c : UInt8) : List (UInt8 × UInt8) :=
  if 0xC2 ≤ c && c ≤ 0xDF then [(0x80, 0xBF)]
  else if c = 0xE0 then [(0xA0, 0xBF), (0x80, 0xBF)]
  else if c = 0xED then [(0x80, 0x9F), (0x80, 0xBF)]
  else if 0xE1 ≤ c && c ≤ 0xEF then [(0x80, 0xBF), (0x80, 0xBF)]
  else if c = 0xF0 then [(0x90, 0xBF), (0x80, 0xBF), (0x80, 0xBF)]
  else if 0xF1 ≤ c && c ≤ 0xF3 then [(0x80, 0xBF), (0x80, 0xBF), (0x80, 0xBF)]
  else if c = 0xF4 then [(0x80, 0x8F), (0x80, 0xBF), (0x80, 0xBF)]
  else []

/-- The number of bytes that continue the character beginning with `c`. A byte that begins none is
a character of its own. -/
def continued (c : UInt8) (rest : GoString) : ℕ :=
  let ranges := acceptRanges c
  if ranges.length ≤ rest.length &&
      (ranges.zip rest).all fun entry => entry.1.1 ≤ entry.2 && entry.2 ≤ entry.1.2 then
    ranges.length
  else 0

/-- Counts characters, the first `inside` bytes being the rest of one. -/
def countRunes : ℕ → GoString → ℕ
  | _, [] => 0
  | 0, c :: rest => countRunes (continued c rest) rest + 1
  | inside + 1, _ :: rest => countRunes inside rest

/-- `utf8.RuneCountInString`. -/
def runeCount (s : GoString) : ℕ := countRunes 0 s

/-- A width, as in `%6d`. -/
def padLeft (width : ℕ) (s : GoString) : GoString :=
  List.replicate (width - runeCount s) space ++ s

/-- A width with the flag `-`, as in `%-12s`. -/
def padRight (width : ℕ) (s : GoString) : GoString :=
  s ++ List.replicate (width - runeCount s) space

example : padRight 12 (text "1–2 µs") = text "1–2 µs      " := by
  decide +kernel

/-! ### Bytes that do not occur -/

variable {c : UInt8} (notDigit : isDigit c = false)

include notDigit in
theorem notMem_formatDecimal (number : ℕ) : c ∉ formatDecimal number := by
  intro present
  rw [isDigit_of_mem_formatDecimal present] at notDigit
  cases notDigit

include notDigit in
theorem notMem_formatFixed1 (notPoint : c ∉ text ".") (number : ℚ) :
    c ∉ formatFixed1 number := by
  simp [formatFixed1, notMem_formatDecimal notDigit, notPoint]

theorem space_notMem_formatDecimal (number : ℕ) : space ∉ formatDecimal number :=
  notMem_formatDecimal (by decide) number

theorem space_notMem_formatFixed1 (number : ℚ) : space ∉ formatFixed1 number :=
  notMem_formatFixed1 (by decide) (by decide) number

theorem notMem_padLeft (notSpace : c ≠ space) (width : ℕ) {s : GoString} (clean : c ∉ s) :
    c ∉ padLeft width s := by
  simp [padLeft, clean, List.mem_replicate, notSpace]

theorem notMem_padRight (notSpace : c ≠ space) (width : ℕ) {s : GoString} (clean : c ∉ s) :
    c ∉ padRight width s := by
  simp [padRight, clean, List.mem_replicate, notSpace]

end Width

section Characters

/-- A string that ends with the end of a character: what follows is counted on its own. -/
def Complete (s : GoString) : Prop :=
  ∀ rest, runeCount (s ++ rest) = runeCount s + runeCount rest

@[simp]
theorem runeCount_nil : runeCount [] = 0 := rfl

theorem complete_nil : Complete [] := by
  intro rest
  rw [List.nil_append, runeCount_nil, Nat.zero_add]

theorem Complete.append {s other : GoString} (complete : Complete s)
    (otherComplete : Complete other) : Complete (s ++ other) := by
  intro rest
  rw [List.append_assoc, complete, complete, otherComplete, Nat.add_assoc]

theorem runeCount_cons_of_ascii {c : UInt8} (ascii : c < 0x80) (rest : GoString) :
    runeCount (c :: rest) = runeCount rest + 1 := by
  have alone : ∀ code < 0x80, acceptRanges (UInt8.ofNat code) = [] := by decide +kernel
  have ranges : acceptRanges c = [] := by
    rw [← UInt8.ofNat_toNat (x := c)]
    exact alone c.toNat (UInt8.lt_iff_toNat_lt.mp ascii)
  have single : continued c rest = 0 := by
    rw [continued, ranges]
    simp
  rw [runeCount, countRunes, single, runeCount]

theorem runeCount_of_ascii {s : GoString} (ascii : ∀ c ∈ s, c < 0x80) (rest : GoString) :
    runeCount (s ++ rest) = s.length + runeCount rest := by
  induction s with
  | nil => simp
  | cons c s ih =>
      have later := ih fun other present => ascii other (List.mem_cons_of_mem c present)
      rw [List.cons_append, runeCount_cons_of_ascii (ascii c List.mem_cons_self), later,
        List.length_cons]
      omega

theorem complete_of_ascii {s : GoString} (ascii : ∀ c ∈ s, c < 0x80) :
    Complete s ∧ runeCount s = s.length := by
  have whole := runeCount_of_ascii ascii []
  rw [List.append_nil, runeCount_nil, Nat.add_zero] at whole
  refine ⟨?_, whole⟩
  intro rest
  rw [runeCount_of_ascii ascii, whole]

/-- A character of three bytes without restrictions on the second. -/
theorem complete_of_three {first second third : UInt8}
    (range : acceptRanges first = [(0x80, 0xBF), (0x80, 0xBF)])
    (secondInside : 0x80 ≤ second ∧ second ≤ 0xBF) (thirdInside : 0x80 ≤ third ∧ third ≤ 0xBF) :
    Complete [first, second, third] ∧ runeCount [first, second, third] = 1 := by
  have counted : ∀ rest, runeCount (first :: second :: third :: rest) = runeCount rest + 1 := by
    intro rest
    have continues : continued first (second :: third :: rest) = 2 := by
      simp [continued, range, secondInside, thirdInside]
    rw [runeCount, countRunes, continues]
    rfl
  refine ⟨?_, counted []⟩
  intro rest
  have alone : runeCount [first, second, third] = 1 := counted []
  rw [alone, Nat.add_comm]
  exact counted rest

theorem complete_flatten_replicate {s : GoString} (complete : Complete s) (count : ℕ) :
    Complete (List.replicate count s).flatten ∧
      runeCount (List.replicate count s).flatten = count * runeCount s := by
  induction count with
  | zero => exact ⟨complete_nil, by simp⟩
  | succ count ih =>
      rw [List.replicate_succ, List.flatten_cons]
      refine ⟨complete.append ih.1, ?_⟩
      rw [complete, ih.2]
      ring

theorem ascii_formatDecimal (number : ℕ) : ∀ c ∈ formatDecimal number, c < 0x80 := by
  intro c present
  have digit := isDigit_of_mem_formatDecimal present
  simp only [isDigit, Bool.and_eq_true, decide_eq_true_eq] at digit
  have upper := UInt8.le_iff_toNat_le.mp digit.2
  rw [UInt8.lt_iff_toNat_lt]
  exact upper.trans_lt (by decide)

theorem ascii_formatFixed1 (number : ℚ) : ∀ c ∈ formatFixed1 number, c < 0x80 := by
  intro c present
  rw [formatFixed1, List.mem_append, List.mem_append] at present
  rcases present with whole | point | fraction
  · exact ascii_formatDecimal _ c whole
  · have only : ∀ c ∈ text ".", c < 0x80 := by decide +kernel
    exact only c point
  · exact ascii_formatDecimal _ c fraction

theorem length_formatDecimal_le {number width : ℕ} (positive : 0 < width)
    (small : number < 10 ^ width) : (formatDecimal number).length ≤ width := by
  rw [formatDecimal]
  split
  · exact positive
  · rw [List.length_map, List.length_reverse]
    exact (Nat.digits_length_le_iff (by decide) number).mpr small

theorem ascii_replicate_space (count : ℕ) : ∀ c ∈ List.replicate count space, c < 0x80 := by
  intro c present
  rw [List.eq_of_mem_replicate present]
  decide

theorem ascii_padLeft {s : GoString} (ascii : ∀ c ∈ s, c < 0x80) (width : ℕ) :
    ∀ c ∈ padLeft width s, c < 0x80 := by
  intro c present
  rcases List.mem_append.mp present with isBlank | isText
  · exact ascii_replicate_space _ c isBlank
  · exact ascii c isText

theorem dropWhile_padLeft {s : GoString} (clean : space ∉ s) (width : ℕ) :
    (padLeft width s).dropWhile (· = space) = s := by
  have blanks : ∀ c ∈ List.replicate (width - runeCount s) space, decide (c = space) = true := by
    intro c present
    exact decide_eq_true (List.eq_of_mem_replicate present)
  rw [padLeft, List.dropWhile_append_of_pos blanks]
  cases s with
  | nil => rfl
  | cons c s =>
      have different : c ≠ space := (List.ne_of_not_mem_cons clean).symm
      simp [different]

/-- A text that is not wider than its width is filled up to it. -/
theorem runeCount_padLeft {s : GoString} {width : ℕ} (fits : runeCount s ≤ width) :
    runeCount (padLeft width s) = width := by
  rw [padLeft, runeCount_of_ascii (ascii_replicate_space _), List.length_replicate]
  omega

end Characters

end Sysmon.Go
