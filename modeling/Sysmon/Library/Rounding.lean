import Mathlib.Algebra.Order.Floor.Ring
import Mathlib.Algebra.Order.Ring.Int
import Mathlib.Tactic.Linarith

/-!
# Rounding to the nearest integer

Rounding to the nearest integer, and to the even one of the two if there is no
nearest. An integer is at most the rounded number if the number comes within
one half of it from below, where a midpoint counts for even integers only. All
comparisons of rounded numbers follow from this.
-/

namespace Rounding

universe u

variable {Number : Type u} [Field Number] [LinearOrder Number] [FloorRing Number]
  {number other : Number} {bound : ℤ}

def roundHalfEven (number : Number) : ℤ :=
  let low := ⌊number⌋
  if Int.fract number < 1 / 2 then low
  else if 1 / 2 < Int.fract number then low + 1
  else if Even low then low
  else low + 1

theorem roundHalfEven_of_fract_lt (below : Int.fract number < 1 / 2) :
    roundHalfEven number = ⌊number⌋ :=
  if_pos below

theorem roundHalfEven_of_lt_fract (above : 1 / 2 < Int.fract number) :
    roundHalfEven number = ⌊number⌋ + 1 := by
  rw [roundHalfEven, if_neg above.not_gt, if_pos above]

theorem roundHalfEven_of_fract_eq (midpoint : Int.fract number = 1 / 2) :
    roundHalfEven number = if Even ⌊number⌋ then ⌊number⌋ else ⌊number⌋ + 1 := by
  rw [roundHalfEven, if_neg midpoint.not_lt, if_neg midpoint.not_gt]

theorem floor_le_roundHalfEven (number : Number) : ⌊number⌋ ≤ roundHalfEven number := by
  rcases lt_trichotomy (Int.fract number) (1 / 2) with below | midpoint | above
  · exact (roundHalfEven_of_fract_lt below).ge
  · rw [roundHalfEven_of_fract_eq midpoint]
    split <;> omega
  · rw [roundHalfEven_of_lt_fract above]
    omega

theorem roundHalfEven_le_floor_add_one (number : Number) :
    roundHalfEven number ≤ ⌊number⌋ + 1 := by
  rcases lt_trichotomy (Int.fract number) (1 / 2) with below | midpoint | above
  · rw [roundHalfEven_of_fract_lt below]
    omega
  · rw [roundHalfEven_of_fract_eq midpoint]
    split <;> omega
  · exact (roundHalfEven_of_lt_fract above).le

/-- The next integer is reached from the midpoint on if it is even, and after it if not. -/
theorem floor_add_one_le_roundHalfEven_iff :
    ⌊number⌋ + 1 ≤ roundHalfEven number ↔
      if Even (⌊number⌋ + 1) then 1 / 2 ≤ Int.fract number else 1 / 2 < Int.fract number := by
  rcases lt_trichotomy (Int.fract number) (1 / 2) with below | midpoint | above
  · rw [roundHalfEven_of_fract_lt below]
    apply iff_of_false (by omega)
    split
    · exact below.not_ge
    · exact below.not_gt
  · rw [roundHalfEven_of_fract_eq midpoint, midpoint]
    by_cases even : Even ⌊number⌋
    · simp [even]
    · simp [even, Int.not_even_iff_odd.mp even]
  · rw [roundHalfEven_of_lt_fract above]
    apply iff_of_true le_rfl
    split
    · exact above.le
    · exact above

variable [IsStrictOrderedRing Number]

theorem le_roundHalfEven_iff :
    bound ≤ roundHalfEven number ↔
      if Even bound then (bound : Number) - 1 / 2 ≤ number
      else (bound : Number) - 1 / 2 < number := by
  have floor := Int.floor_add_fract number
  have nonneg := Int.fract_nonneg number
  have small := Int.fract_lt_one number
  rcases lt_trichotomy bound (⌊number⌋ + 1) with within | next | beyond
  · have lower : (bound : Number) ≤ ⌊number⌋ := Int.cast_le.mpr (Int.lt_add_one_iff.mp within)
    apply iff_of_true ((Int.lt_add_one_iff.mp within).trans (floor_le_roundHalfEven number))
    split <;> linarith
  · have isNext : (bound : Number) = ⌊number⌋ + 1 := by rw [next, Int.cast_add, Int.cast_one]
    rw [next, floor_add_one_le_roundHalfEven_iff, ← next, isNext]
    split
    · constructor <;> intro reached <;> linarith
    · constructor <;> intro reached <;> linarith
  · have upper : (⌊number⌋ : Number) + 1 + 1 ≤ bound := by
      exact_mod_cast Int.add_one_le_iff.mpr beyond
    apply iff_of_false ((roundHalfEven_le_floor_add_one number).trans_lt beyond).not_ge
    split
    · rw [not_le]
      linarith
    · rw [not_lt]
      linarith

theorem roundHalfEven_mono (ordered : number ≤ other) :
    roundHalfEven number ≤ roundHalfEven other := by
  have reached := le_roundHalfEven_iff.mp (le_refl (roundHalfEven number))
  rw [le_roundHalfEven_iff]
  split
  · rename_i even
    rw [if_pos even] at reached
    exact reached.trans ordered
  · rename_i odd
    rw [if_neg odd] at reached
    exact reached.trans_le ordered

@[simp]
theorem roundHalfEven_intCast (bound : ℤ) : roundHalfEven (bound : Number) = bound := by
  rw [roundHalfEven_of_fract_lt (by simp), Int.floor_intCast]

theorem le_roundHalfEven (reaches : (bound : Number) ≤ number) : bound ≤ roundHalfEven number :=
  calc
    bound = roundHalfEven (bound : Number) := (roundHalfEven_intCast bound).symm
    _ ≤ roundHalfEven number := roundHalfEven_mono reaches

theorem roundHalfEven_le (reaches : number ≤ (bound : Number)) : roundHalfEven number ≤ bound :=
  calc
    roundHalfEven number ≤ roundHalfEven (bound : Number) := roundHalfEven_mono reaches
    _ = bound := roundHalfEven_intCast bound

/-- The rounded number is at most one half away. -/
theorem abs_roundHalfEven_sub_le (number : Number) :
    |(roundHalfEven number : Number) - number| ≤ 1 / 2 := by
  have floor := Int.floor_add_fract number
  have nonneg := Int.fract_nonneg number
  have small := Int.fract_lt_one number
  rw [abs_le]
  rcases lt_trichotomy (Int.fract number) (1 / 2) with below | midpoint | above
  · rw [roundHalfEven_of_fract_lt below]
    constructor <;> linarith
  · rw [roundHalfEven_of_fract_eq midpoint]
    split
    · constructor <;> linarith
    · push_cast
      constructor <;> linarith
  · rw [roundHalfEven_of_lt_fract above]
    push_cast
    constructor <;> linarith

end Rounding
