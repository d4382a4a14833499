import Mathlib.Algebra.BigOperators.Group.List.Basic
import Mathlib.Algebra.CharZero.Defs
import Mathlib.Algebra.Field.Basic
import Mathlib.Algebra.Order.Ring.Nat

/-!
# Proportions of weights

Items with weights are shown in proportion to one another: as cells of a bar of
a fixed width, which the items of the largest weight fill, and as shares of a
whole, which all items make up together.
-/

namespace Proportions

universe u v

variable {Item : Type u} (weight : Item → ℕ) (items : List Item)

def total : ℕ := (items.map weight).sum

def largest : ℕ := (items.map weight).foldr max 0

/-- The filled cells of the bar of an item. -/
def cells (width : ℕ) (item : Item) : ℕ := width * weight item / largest weight items

def share {Number : Type v} [Field Number] (whole : Number) (item : Item) : Number :=
  weight item / total weight items * whole

variable {weight items} {item other : Item} {width : ℕ}

@[simp]
theorem total_nil : total weight [] = 0 := rfl

@[simp]
theorem total_cons : total weight (item :: items) = weight item + total weight items := by
  simp [total]

@[simp]
theorem largest_nil : largest weight [] = 0 := rfl

@[simp]
theorem largest_cons :
    largest weight (item :: items) = max (weight item) (largest weight items) := rfl

theorem weight_le_largest (present : item ∈ items) : weight item ≤ largest weight items := by
  induction items with
  | nil => exact absurd present List.not_mem_nil
  | cons first items ih =>
      rw [largest_cons]
      rcases List.mem_cons.mp present with rfl | later
      · exact le_max_left _ _
      · exact (ih later).trans (le_max_right _ _)

theorem largest_le {bound : ℕ} (bounded : ∀ item ∈ items, weight item ≤ bound) :
    largest weight items ≤ bound := by
  induction items with
  | nil => exact Nat.zero_le _
  | cons first items ih =>
      rw [largest_cons]
      apply max_le (bounded first (by simp))
      exact ih fun item present => bounded item (by simp [present])

theorem total_eq_zero_iff : total weight items = 0 ↔ ∀ item ∈ items, weight item = 0 := by
  induction items with
  | nil => simp
  | cons first items ih => rw [total_cons, Nat.add_eq_zero_iff, ih, List.forall_mem_cons]

/-- Items without weight do not count. -/
theorem total_filter (kept : Item → Bool) (dropped : ∀ item ∈ items, kept item = false →
    weight item = 0) : total weight (items.filter kept) = total weight items := by
  induction items with
  | nil => rfl
  | cons item items ih =>
      have later := ih fun item present => dropped item (by simp [present])
      rw [List.filter_cons]
      split
      · rw [total_cons, total_cons, later]
      · rename_i notKept
        rw [later, total_cons, dropped item (by simp) (by simpa using notKept), Nat.zero_add]

theorem cells_le (present : item ∈ items) : cells weight items width item ≤ width := by
  apply Nat.div_le_of_le_mul
  rw [Nat.mul_comm]
  exact Nat.mul_le_mul_right width (weight_le_largest present)

/-- An item of the largest weight fills its bar. -/
theorem cells_of_largest (present : item ∈ items) (positive : 0 < weight item)
    (isLargest : ∀ other ∈ items, weight other ≤ weight item) :
    cells weight items width item = width := by
  have same : largest weight items = weight item :=
    (largest_le isLargest).antisymm (weight_le_largest present)
  rw [cells, same]
  exact Nat.mul_div_cancel width positive

theorem cells_mono (smaller : weight item ≤ weight other) :
    cells weight items width item ≤ cells weight items width other :=
  Nat.div_le_div_right (Nat.mul_le_mul_left width smaller)

section Shares

variable {Number : Type v} [Field Number] (whole : Number)

theorem sum_share (some : List Item) :
    (some.map (share weight items whole)).sum =
      (total weight some : Number) / total weight items * whole := by
  induction some with
  | nil => simp
  | cons item some ih =>
      rw [List.map_cons, List.sum_cons, ih, total_cons, share, Nat.cast_add, add_div, add_mul]

/-- The shares of the items with a weight make up the whole. -/
theorem sum_share_filter [CharZero Number] (positive : total weight items ≠ 0)
    (kept : Item → Bool) (dropped : ∀ item ∈ items, kept item = false → weight item = 0) :
    ((items.filter kept).map (share weight items whole)).sum = whole := by
  rw [sum_share, total_filter kept dropped, div_self (Nat.cast_ne_zero.mpr positive), one_mul]

end Shares

end Proportions
