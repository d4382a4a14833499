import Sysmon.Ebpf.BlockLatency
import Sysmon.Ebpf.Loader
import Sysmon.Go.Strconv

/-!
# What the labels of the buckets say

The buckets are filled by `bucket_for` in C and labelled by `bucketLabel` in
Go. This file reads a label back as the interval of microseconds that it shows
and compares it with the latencies that are counted under it. They agree up to
the end of the last bucket; whatever takes longer is counted there as well.
-/

namespace Sysmon.Ebpf

open Sysmon.Go

/-- The interval of microseconds that a label shows, from its lower to below its upper end. -/
def readLabel (label : GoString) : Option (ℕ × ℕ) :=
  if label = text "<1 µs" then some (0, 1)
  else
    let lo := label.takeWhile isDigit
    let afterLo := label.dropWhile isDigit
    let hi := (afterLo.drop (text "–").length).takeWhile isDigit
    let afterHi := (afterLo.drop (text "–").length).dropWhile isDigit
    if lo ≠ [] ∧ text "–" <+: afterLo ∧ hi ≠ [] ∧ afterHi = text " µs" then
      some (decimalValue lo, decimalValue hi)
    else none

theorem readLabel_bounds (lo hi : ℕ) :
    readLabel (formatDecimal lo ++ (text "–" ++ (formatDecimal hi ++ text " µs"))) =
      some (lo, hi) := by
  rcases span_formatDecimal lo (text "–" ++ (formatDecimal hi ++ text " µs")) (by rfl) with
    ⟨isLo, afterLo⟩
  rcases span_formatDecimal hi (text " µs") (by decide) with ⟨isHi, afterHi⟩
  have notFirst : formatDecimal lo ++ (text "–" ++ (formatDecimal hi ++ text " µs")) ≠
      text "<1 µs" := by
    intro same
    rw [same] at isLo
    exact formatDecimal_ne_nil lo isLo.symm
  rw [readLabel, if_neg notFirst]
  simp only [isLo, afterLo, List.drop_left, isHi, afterHi, formatDecimal_ne_nil, ne_eq,
    not_false_eq_true, List.prefix_append, and_self, if_true, decimalValue_formatDecimal]

/-- The interval of a bucket in microseconds. -/
def bucketBounds (i : ℕ) : ℕ × ℕ := if i = 0 then (0, 1) else (2 ^ (i - 1), 2 ^ i)

/-- The bounds of a label are powers of two, as long as they fit into 64 bits. -/
theorem readLabel_bucketLabel {i : UInt32} (inRange : i.toNat < 64) :
    readLabel (bucketLabel i) = some (bucketBounds i.toNat) := by
  rw [bucketLabel]
  by_cases first : i = 0
  · rw [if_pos first, first]
    decide +kernel
  · have positive : 0 < i.toNat := by
      rw [Nat.pos_iff_ne_zero]
      intro zero
      exact first (UInt32.toNat_inj.mp zero)
    have below : (i - 1).toNat = i.toNat - 1 :=
      UInt32.toNat_sub_of_le _ _ (UInt32.le_iff_toNat_le.mpr positive)
    have power : ∀ exponent < 64, (UInt64.ofNat (2 ^ exponent)).toNat = 2 ^ exponent := by
      intro exponent fits
      exact UInt64.toNat_ofNat_of_lt' (Nat.pow_lt_pow_right Nat.one_lt_two fits)
    have lower : (shiftLeft 1 (i.toNat - 1)).toNat = 2 ^ (i.toNat - 1) := by
      rw [shiftLeft, UInt64.toNat_one, Nat.one_shiftLeft]
      exact power _ (by omega)
    have upper : (shiftLeft (shiftLeft 1 (i.toNat - 1)) 1).toNat = 2 ^ i.toNat := by
      rw [shiftLeft, lower, Nat.shiftLeft_eq, ← Nat.pow_succ, Nat.succ_eq_add_one,
        Nat.sub_add_cancel positive]
      exact power _ inRange
    rw [if_neg first, bucketBounds, if_neg positive.ne']
    simp only [below, lower, upper, List.append_assoc]
    exact readLabel_bounds _ _

/-- A number lies in the bucket of its digits, as long as it does not have more than 23. -/
theorem bucketBounds_contains_iff (latencyUs : ℕ) :
    ((bucketBounds (min 23 latencyUs.size)).1 ≤ latencyUs ∧
      latencyUs < (bucketBounds (min 23 latencyUs.size)).2) ↔ latencyUs < 2 ^ 23 := by
  have upper := Nat.lt_size_self latencyUs
  rcases Nat.eq_zero_or_pos latencyUs.size with zero | positive
  · rw [Nat.size_eq_zero.mp zero]
    decide
  · rcases Nat.lt_or_ge 23 latencyUs.size with beyond | within
    · -- There are more than 23 digits, and the last bucket ends at `2 ^ 23`.
      have large : 2 ^ 23 ≤ latencyUs := Nat.lt_size.mp beyond
      rw [Nat.min_eq_left beyond.le]
      exact iff_of_false (fun inside => inside.2.not_ge large) large.not_gt
    · have lower : 2 ^ (latencyUs.size - 1) ≤ latencyUs :=
        Nat.lt_size.mp (Nat.sub_lt positive Nat.one_pos)
      have bound : 2 ^ latencyUs.size ≤ 2 ^ 23 := Nat.pow_le_pow_right Nat.two_pos within
      rw [Nat.min_eq_right within, bucketBounds, if_neg positive.ne']
      exact iff_of_true ⟨lower, upper⟩ (upper.trans_le bound)

/-- The label of the bucket in which a latency is counted contains it if and only if the latency
is below the end of the last bucket. -/
theorem bucketLabel_contains_iff (deltaNs : UInt64) :
    (∃ lo hi, readLabel (bucketLabel (bucketFor (deltaNs / 1000))) = some (lo, hi) ∧
      lo * 1000 ≤ deltaNs.toNat ∧ deltaNs.toNat < hi * 1000) ↔
    deltaNs.toNat < 2 ^ 23 * 1000 := by
  have inRange : (bucketFor (deltaNs / 1000)).toNat < 64 :=
    (bucketFor_lt (deltaNs / 1000)).trans (by decide)
  have latencyUs : (deltaNs / 1000).toNat = deltaNs.toNat / 1000 := UInt64.toNat_div _ _
  have thousand : 0 < 1000 := by decide
  rw [← Nat.div_lt_iff_lt_mul thousand, ← bucketBounds_contains_iff,
    readLabel_bucketLabel inRange, toNat_bucketFor, latencyUs]
  simp only [← Nat.le_div_iff_mul_le thousand, ← Nat.div_lt_iff_lt_mul thousand,
    Option.some.injEq]
  constructor
  · rintro ⟨lo, hi, bounds, inside⟩
    rw [bounds]
    exact inside
  · intro inside
    exact ⟨_, _, rfl, inside⟩

/-- A latency of ten seconds is counted under a label that ends before nine. -/
theorem bucketLabel_not_contains :
    ¬∃ lo hi, readLabel (bucketLabel (bucketFor ((10000000000 : UInt64) / 1000))) =
        some (lo, hi) ∧
      lo * 1000 ≤ (10000000000 : UInt64).toNat ∧ (10000000000 : UInt64).toNat < hi * 1000 := by
  have shown : readLabel (bucketLabel (bucketFor ((10000000000 : UInt64) / 1000))) =
      some (4194304, 8388608) := by decide +kernel
  rintro ⟨lo, hi, bounds, _, below⟩
  rw [shown, Option.some.injEq, Prod.mk.injEq] at bounds
  rw [← bounds.2] at below
  exact absurd below (by decide)

end Sysmon.Ebpf
