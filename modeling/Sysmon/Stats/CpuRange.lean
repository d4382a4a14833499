import Mathlib.Algebra.Order.Field.Basic
import Mathlib.Tactic.Linarith
import Mathlib.Tactic.Positivity
import Sysmon.Stats.ProcStat

/-!
# What CPU percentages say

For counters that advance, a percentage is the exact share of the busy time,
even if the sums of the counters wrap. Counters that step back are another
matter: the two differences that a percentage is made of are taken modulo
`2 ^ 64`, and a percentage lies between 0 and 100 if and only if the advances of
the idle and of the busy time, taken so, do not exceed `2 ^ 64` together.
-/

namespace Sysmon.Stats

open Sysmon.Go

namespace CPUTimes

namespace Advances

variable {p c : CPUTimes} (advances : p.Advances c)

include advances

/-- A percentage is the share of the advance of all counters that is not idle time. -/
theorem percent_eq :
    p.percent c =
      if c.counted = p.counted then 0
      else 100 * ((c.counted - p.counted : ℚ) - (c.idle.toNat - p.idle.toNat) -
        (c.ioWait.toNat - p.ioWait.toNat)) / (c.counted - p.counted) := by
  have idle := advances.idle_le
  have whole := advances.idle_add_le
  split
  · rename_i still
    rw [percent, advances.toNat_total_sub, still]
    simp
  · rename_i moved
    have grows : p.counted ≤ c.counted := by omega
    have positive : (0 : ℚ) < c.counted - p.counted := by
      rw [sub_pos, Nat.cast_lt]
      omega
    have share := advances.percent_mul_advance
    rw [Nat.cast_sub grows] at share
    rw [eq_div_iff positive.ne']
    simp only [busy] at share
    linarith

end Advances

/-- The advance of the idle time, modulo `2 ^ 64`. -/
def idleAdvance (p c : CPUTimes) : ℤ :=
  ((c.idle.toNat - p.idle.toNat : ℤ) + (c.ioWait.toNat - p.ioWait.toNat)) % 2 ^ 64

/-- The advance of the six other counters, modulo `2 ^ 64`. -/
def busyAdvance (p c : CPUTimes) : ℤ :=
  ((c.user.toNat - p.user.toNat : ℤ) + (c.nice.toNat - p.nice.toNat) +
    (c.system.toNat - p.system.toNat) + (c.irq.toNat - p.irq.toNat) +
    (c.softIRQ.toNat - p.softIRQ.toNat) + (c.steal.toNat - p.steal.toNat)) % 2 ^ 64

theorem toNat_sub_emod (a b : UInt64) : ((a - b).toNat : ℤ) = (a.toNat - b.toNat : ℤ) % 2 ^ 64 := by
  have := a.toNat_lt
  have := b.toNat_lt
  rw [UInt64.toNat_sub]
  omega

theorem toNat_idleTotal_sub_eq (p c : CPUTimes) :
    ((c.idleTotal - p.idleTotal).toNat : ℤ) = p.idleAdvance c := by
  rw [toNat_sub_emod, toNat_idleTotal, toNat_idleTotal, idleAdvance]
  omega

theorem toNat_total_sub_eq (p c : CPUTimes) :
    ((c.total - p.total).toNat : ℤ) = (p.idleAdvance c + p.busyAdvance c) % 2 ^ 64 := by
  rw [toNat_sub_emod, toNat_total, toNat_total, idleAdvance, busyAdvance, counted, counted]
  omega

theorem share_mem_iff (total idle : ℕ) :
    (0 ≤ (if (total : ℚ) ≤ 0 then 0 else ((total : ℚ) - idle) / total * 100) ∧
      (if (total : ℚ) ≤ 0 then 0 else ((total : ℚ) - idle) / total * 100) ≤ 100) ↔
      total = 0 ∨ idle ≤ total := by
  rcases Nat.eq_zero_or_pos total with zero | positive
  · simp [zero]
  · have totalPos : (0 : ℚ) < total := Nat.cast_pos.mpr positive
    have value : ((total : ℚ) - idle) / total * 100 = 100 - 100 * (idle / total) := by
      field_simp
    have idleShare : (0 : ℚ) ≤ idle / total := by positivity
    rw [if_neg totalPos.not_ge, value, or_iff_right positive.ne', ← Nat.cast_le (α := ℚ),
      ← div_le_one totalPos]
    constructor
    · rintro ⟨lower, _⟩
      linarith
    · intro atMost
      constructor <;> linarith

theorem percent_mem_iff (p c : CPUTimes) :
    (0 ≤ p.percent c ∧ p.percent c ≤ 100) ↔ p.idleAdvance c + p.busyAdvance c ≤ 2 ^ 64 := by
  have total := toNat_total_sub_eq p c
  have idle := toNat_idleTotal_sub_eq p c
  have idleBound : 0 ≤ p.idleAdvance c ∧ p.idleAdvance c < 2 ^ 64 := by
    rw [idleAdvance]
    omega
  have busyBound : 0 ≤ p.busyAdvance c ∧ p.busyAdvance c < 2 ^ 64 := by
    rw [busyAdvance]
    omega
  rw [percent]
  simp only
  rw [share_mem_iff]
  -- The sum of the advances wraps exactly if it is at least `2 ^ 64`.
  omega

end CPUTimes

/-- The percentages of the CPUs in both samples come from their last entries there, whatever
other entries there are, and are exact if the counters advance. -/
theorem cpuPercent_exact (prev cur : List CPUTimes) :
    (∀ name, name ∈ cpuPercent prev cur ↔
      (∃ p ∈ prev, p.name = name) ∧ ∃ c ∈ cur, c.name = name) ∧
    (∀ name p c, History.last (fun item => item.name = name) prev = some p →
      History.last (fun item => item.name = name) cur = some c → p.Advances c →
        (cpuPercent prev cur).lookup name = some
          (if c.counted = p.counted then 0
          else 100 * ((c.counted - p.counted : ℚ) - (c.idle.toNat - p.idle.toNat) -
            (c.ioWait.toNat - p.ioWait.toNat)) / (c.counted - p.counted))) ∧
    ∀ name prev' cur',
      prev'.filter (fun item => item.name = name) = prev.filter (fun item => item.name = name) →
      cur'.filter (fun item => item.name = name) = cur.filter (fun item => item.name = name) →
        (cpuPercent prev' cur').lookup name = (cpuPercent prev cur).lookup name := by
  refine ⟨?_, ?_, ?_⟩
  · intro name
    rw [cpuPercent_eq_join, KeyedList.mem_join_iff]
  · intro name p c isPrev isCur advances
    rw [lookup_cpuPercent, isPrev, isCur]
    simp only [Option.bind_some, Option.map_some, advances.percent_eq]
  · intro name prev' cur' samePrev sameCur
    simp only [lookup_cpuPercent, History.last, samePrev, sameCur]

/-- Sums of counters that wrap between the samples. -/
theorem cpuPercent_exact_wrapped :
    (cpuPercent [⟨text "cpu", 18446744073709551000, 600, 0, 10, 0, 0, 0, 0, 0, 0⟩]
      [⟨text "cpu", 18446744073709551010, 640, 0, 60, 0, 0, 0, 0, 7, 0⟩]).lookup (text "cpu") =
        some 50 := by
  have value := (cpuPercent_exact [⟨text "cpu", 18446744073709551000, 600, 0, 10, 0, 0, 0, 0, 0, 0⟩]
    [⟨text "cpu", 18446744073709551010, 640, 0, 60, 0, 0, 0, 0, 7, 0⟩]).2.1 (text "cpu") _ _ rfl rfl
    (by decide +kernel)
  rw [value]
  decide +kernel

/-- All percentages lie between 0 and 100 if and only if, for every CPU in both samples, the
advances of the idle and the busy time modulo `2 ^ 64` do not exceed `2 ^ 64` together. -/
theorem cpuPercent_mem_iff (prev cur : List CPUTimes) :
    (∀ name percent, (cpuPercent prev cur).lookup name = some percent →
      0 ≤ percent ∧ percent ≤ 100) ↔
    ∀ name p c, History.last (fun item => item.name = name) prev = some p →
      History.last (fun item => item.name = name) cur = some c →
        p.idleAdvance c + p.busyAdvance c ≤ 2 ^ 64 := by
  simp only [lookup_cpuPercent, ← CPUTimes.percent_mem_iff]
  constructor
  · intro inRange name p c isPrev isCur
    apply inRange name
    rw [isPrev, isCur]
    rfl
  · intro inRange name percent isPercent
    rcases Option.bind_eq_some_iff.mp isPercent with ⟨p, isPrev, isEntry⟩
    rcases Option.map_eq_some_iff.mp isEntry with ⟨c, isCur, rfl⟩
    exact inRange name p c isPrev isCur

/-- Two readings of `/proc/stat` between which the idle counter steps back by one. -/
theorem cpuPercent_out_of_range :
    ∃ prev cur, parseCPUTimes (text "cpu 100 0 0 500 0 0 0 0\n") = (prev, none) ∧
      parseCPUTimes (text "cpu 110 0 0 499 0 0 0 0\n") = (cur, none) ∧
      ∃ percent, (cpuPercent prev cur).lookup (text "cpu") = some percent ∧
        ¬(0 ≤ percent ∧ percent ≤ 100) := by
  refine ⟨[⟨text "cpu", 100, 0, 0, 500, 0, 0, 0, 0, 0, 0⟩],
    [⟨text "cpu", 110, 0, 0, 499, 0, 0, 0, 0, 0, 0⟩], ?_, ?_,
    (9 - 18446744073709551615) / 9 * 100, ?_, ?_⟩
  · decide +kernel
  · decide +kernel
  · decide +kernel
  · norm_num

end Sysmon.Stats
