import Mathlib.Algebra.Order.Field.Rat
import Mathlib.Tactic.FieldSimp
import Mathlib.Tactic.Ring
import Sysmon.Go.Values
import Sysmon.Library.KeyedList

/-!
# CPU usage

This file embeds the part of `cpu.go` that turns two samples of the CPU
counters into percentages. Sums and differences of counters wrap at `2 ^ 64`
as they do in the code, and the percentages are exact rationals.

The sum of the counters may wrap without harm: as long as the counters advance
by less than `2 ^ 64` in total between two samples, the differences of the
wrapped sums are the differences of the true sums.
-/

namespace Sysmon.Stats

open Sysmon.Go

/-- The counters of one CPU line of `/proc/stat`. -/
structure CPUTimes where
  name : GoString
  user : UInt64
  nice : UInt64
  system : UInt64
  idle : UInt64
  ioWait : UInt64
  irq : UInt64
  softIRQ : UInt64
  steal : UInt64
  guest : UInt64
  guestNice : UInt64
deriving DecidableEq

namespace CPUTimes

/-- `Total`: guest times are part of user and nice already. -/
def total (c : CPUTimes) : UInt64 :=
  c.user + c.nice + c.system + c.idle + c.ioWait + c.irq + c.softIRQ + c.steal

def idleTotal (c : CPUTimes) : UInt64 := c.idle + c.ioWait

/-- The busy share of the time between two samples of one CPU. -/
def percent (p c : CPUTimes) : ℚ :=
  let totalDelta : ℚ := (c.total - p.total).toNat
  let idleDelta : ℚ := (c.idleTotal - p.idleTotal).toNat
  if totalDelta ≤ 0 then 0
  else
    let busy := totalDelta - idleDelta
    busy / totalDelta * 100

end CPUTimes

def cpuPercent (prev cur : List CPUTimes) : GoMap ℚ :=
  let prevByName : GoMap CPUTimes :=
    prev.foldl (fun prevByName p => prevByName.insert p.name p) ∅
  let result : GoMap ℚ := ∅
  cur.foldl (fun result c =>
    match prevByName.lookup c.name with
    | none => result
    | some p => result.insert c.name (p.percent c)) result

theorem cpuPercent_eq_join (prev cur : List CPUTimes) :
    cpuPercent prev cur = KeyedList.join CPUTimes.name CPUTimes.percent prev cur := by
  simp only [cpuPercent, KeyedList.join, KeyedList.index]
  congr 1
  funext result c
  cases Finmap.lookup c.name _ <;> rfl

/-- The percentage of a CPU comes from its last entries in the two samples. -/
theorem lookup_cpuPercent (prev cur : List CPUTimes) (name : GoString) :
    (cpuPercent prev cur).lookup name =
      (History.last (fun item => item.name = name) prev).bind fun p =>
        (History.last (fun item => item.name = name) cur).map fun c => p.percent c := by
  rw [cpuPercent_eq_join, KeyedList.lookup_join]

namespace CPUTimes

def counted (c : CPUTimes) : ℕ :=
  c.user.toNat + c.nice.toNat + c.system.toNat + c.idle.toNat + c.ioWait.toNat + c.irq.toNat +
    c.softIRQ.toNat + c.steal.toNat

def busy (c : CPUTimes) : ℚ := (c.counted : ℚ) - c.idle.toNat - c.ioWait.toNat

/-- No counted field goes back, and together they advance by less than `2 ^ 64`. -/
structure Advances (p c : CPUTimes) : Prop where
  user : p.user ≤ c.user
  nice : p.nice ≤ c.nice
  system : p.system ≤ c.system
  idle : p.idle ≤ c.idle
  ioWait : p.ioWait ≤ c.ioWait
  irq : p.irq ≤ c.irq
  softIRQ : p.softIRQ ≤ c.softIRQ
  steal : p.steal ≤ c.steal
  counted : c.counted < p.counted + 2 ^ 64

instance (p c : CPUTimes) : Decidable (p.Advances c) :=
  decidable_of_iff ((p.user ≤ c.user ∧ p.nice ≤ c.nice ∧ p.system ≤ c.system ∧ p.idle ≤ c.idle) ∧
      (p.ioWait ≤ c.ioWait ∧ p.irq ≤ c.irq ∧ p.softIRQ ≤ c.softIRQ ∧ p.steal ≤ c.steal) ∧
      c.counted < p.counted + 2 ^ 64)
    ⟨fun ⟨⟨user, nice, system, idle⟩, ⟨ioWait, irq, softIRQ, steal⟩, counted⟩ =>
      ⟨user, nice, system, idle, ioWait, irq, softIRQ, steal, counted⟩,
     fun ⟨user, nice, system, idle, ioWait, irq, softIRQ, steal, counted⟩ =>
      ⟨⟨user, nice, system, idle⟩, ⟨ioWait, irq, softIRQ, steal⟩, counted⟩⟩

theorem toNat_total (c : CPUTimes) : c.total.toNat = c.counted % 2 ^ 64 := by
  simp [total, counted, UInt64.toNat_add]

theorem toNat_idleTotal (c : CPUTimes) :
    c.idleTotal.toNat = (c.idle.toNat + c.ioWait.toNat) % 2 ^ 64 := by
  simp [idleTotal, UInt64.toNat_add]

theorem toNat_sub_of_mod {wrapped wrappedPrev : UInt64} {value prev : ℕ}
    (isValue : wrapped.toNat = value % 2 ^ 64) (isPrev : wrappedPrev.toNat = prev % 2 ^ 64)
    (grows : prev ≤ value) (bound : value < prev + 2 ^ 64) :
    (wrapped - wrappedPrev).toNat = value - prev := by
  rw [UInt64.toNat_sub, isValue, isPrev]
  omega

namespace Advances

variable {p c : CPUTimes} (advances : p.Advances c)

include advances

theorem idle_le : p.idle.toNat + p.ioWait.toNat ≤ c.idle.toNat + c.ioWait.toNat :=
  Nat.add_le_add (UInt64.le_iff_toNat_le.mp advances.idle)
    (UInt64.le_iff_toNat_le.mp advances.ioWait)

/-- The idle time is part of the counted time, and so is its advance. -/
theorem idle_add_le :
    c.idle.toNat + c.ioWait.toNat + p.counted ≤ c.counted + (p.idle.toNat + p.ioWait.toNat) := by
  have user := UInt64.le_iff_toNat_le.mp advances.user
  have nice := UInt64.le_iff_toNat_le.mp advances.nice
  have system := UInt64.le_iff_toNat_le.mp advances.system
  have irq := UInt64.le_iff_toNat_le.mp advances.irq
  have softIRQ := UInt64.le_iff_toNat_le.mp advances.softIRQ
  have steal := UInt64.le_iff_toNat_le.mp advances.steal
  simp only [CPUTimes.counted]
  omega

theorem toNat_total_sub : (c.total - p.total).toNat = c.counted - p.counted := by
  have idle := advances.idle_le
  have whole := advances.idle_add_le
  apply toNat_sub_of_mod (toNat_total c) (toNat_total p)
  · omega
  · exact advances.counted

theorem toNat_idleTotal_sub : (c.idleTotal - p.idleTotal).toNat =
    c.idle.toNat + c.ioWait.toNat - (p.idle.toNat + p.ioWait.toNat) := by
  have whole := advances.idle_add_le
  have bound := advances.counted
  apply toNat_sub_of_mod (toNat_idleTotal c) (toNat_idleTotal p)
  · exact advances.idle_le
  · omega

/-- A percentage of the advance of the counted time is the advance of the busy time. -/
theorem percent_mul_advance :
    p.percent c / 100 * (c.counted - p.counted : ℕ) = c.busy - p.busy := by
  have idle := advances.idle_le
  have whole := advances.idle_add_le
  have busyAdvance : c.busy - p.busy = ((c.counted - p.counted : ℕ) : ℚ) -
      ((c.idle.toNat + c.ioWait.toNat - (p.idle.toNat + p.ioWait.toNat) : ℕ) : ℚ) := by
    rw [Nat.cast_sub (by omega), Nat.cast_sub idle, busy, busy]
    push_cast
    ring
  rw [percent, advances.toNat_total_sub, advances.toNat_idleTotal_sub, busyAdvance]
  rcases Nat.eq_zero_or_pos (c.counted - p.counted) with still | moved
  · have idleStill : c.idle.toNat + c.ioWait.toNat - (p.idle.toNat + p.ioWait.toNat) = 0 := by
      omega
    simp [still, idleStill]
  · have positive : (0 : ℚ) < (c.counted - p.counted : ℕ) := Nat.cast_pos.mpr moved
    rw [if_neg positive.not_ge]
    field_simp

end Advances

end CPUTimes

end Sysmon.Stats
