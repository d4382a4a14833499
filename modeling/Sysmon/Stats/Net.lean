import Mathlib.Algebra.Order.Field.Rat
import Sysmon.Go.Values
import Sysmon.Library.KeyedList

/-!
# Network throughput

This file embeds the part of `net.go` that turns two samples of the interface
counters into rates. The rates are exact rationals.
-/

namespace Sysmon.Stats

open Sysmon.Go

structure NetIO where
  interface : GoString
  rxBytes : UInt64
  rxPackets : UInt64
  txBytes : UInt64
  txPackets : UInt64
deriving DecidableEq

structure NetThroughput where
  rxBps : ℚ
  txBps : ℚ
deriving DecidableEq

/-- The advance of a counter, or zero if it has been reset. -/
def counterDelta (prev cur : UInt64) : UInt64 :=
  if cur ≥ prev then cur - prev else 0

def throughput (elapsedSeconds : ℚ) (p c : NetIO) : NetThroughput :=
  let rxDelta := counterDelta p.rxBytes c.rxBytes
  let txDelta := counterDelta p.txBytes c.txBytes
  { rxBps := rxDelta.toNat / elapsedSeconds
    txBps := txDelta.toNat / elapsedSeconds }

/-- `ComputeNetThroughput`: bytes per second for each interface in both samples. -/
def computeNetThroughput (prev cur : List NetIO) (elapsedSeconds : ℚ) : GoMap NetThroughput :=
  let prevByName : GoMap NetIO :=
    prev.foldl (fun prevByName p => prevByName.insert p.interface p) ∅
  let result : GoMap NetThroughput := ∅
  if elapsedSeconds ≤ 0 then result
  else
    cur.foldl (fun result c =>
      match prevByName.lookup c.interface with
      | none => result
      | some p => result.insert c.interface (throughput elapsedSeconds p c)) result

theorem computeNetThroughput_eq_join {elapsedSeconds : ℚ} (positive : 0 < elapsedSeconds)
    (prev cur : List NetIO) :
    computeNetThroughput prev cur elapsedSeconds =
      KeyedList.join NetIO.interface (throughput elapsedSeconds) prev cur := by
  rw [computeNetThroughput, if_neg positive.not_ge, KeyedList.join]
  congr 1
  funext result c
  simp only [KeyedList.index]
  cases Finmap.lookup c.interface _ <;> rfl

theorem lookup_computeNetThroughput {elapsedSeconds : ℚ} (positive : 0 < elapsedSeconds)
    (prev cur : List NetIO) (name : GoString) :
    (computeNetThroughput prev cur elapsedSeconds).lookup name =
      (History.last (fun item => item.interface = name) prev).bind fun p =>
        (History.last (fun item => item.interface = name) cur).map fun c =>
          throughput elapsedSeconds p c := by
  rw [computeNetThroughput_eq_join positive, KeyedList.lookup_join]

theorem exists_of_mem_computeNetThroughput {prev cur : List NetIO} {elapsedSeconds : ℚ}
    {name : GoString} (present : name ∈ computeNetThroughput prev cur elapsedSeconds) :
    ∃ item ∈ cur, item.interface = name := by
  rcases le_or_gt elapsedSeconds 0 with notPositive | positive
  · rw [computeNetThroughput, if_pos notPositive] at present
    exact absurd present Finmap.notMem_empty
  · rw [computeNetThroughput_eq_join positive, KeyedList.mem_join_iff] at present
    exact present.2

theorem counterDelta_div_mul {elapsedSeconds : ℚ} (positive : 0 < elapsedSeconds)
    {prev cur : UInt64} (grows : prev ≤ cur) :
    (counterDelta prev cur).toNat / elapsedSeconds * elapsedSeconds =
      (cur.toNat : ℚ) - prev.toNat := by
  rw [div_mul_cancel₀ _ positive.ne', counterDelta, if_pos grows,
    UInt64.toNat_sub_of_le _ _ grows]
  exact Nat.cast_sub (UInt64.le_iff_toNat_le.mp grows)

theorem toNat_counterDelta (prev cur : UInt64) :
    ((counterDelta prev cur).toNat : ℚ) = max 0 ((cur.toNat : ℚ) - prev.toNat) := by
  rw [counterDelta]
  split
  · rename_i grows
    have grewBy := Nat.cast_le (α := ℚ).mpr (UInt64.le_iff_toNat_le.mp grows)
    rw [UInt64.toNat_sub_of_le _ _ grows, Nat.cast_sub (UInt64.le_iff_toNat_le.mp grows),
      max_eq_right (sub_nonneg.mpr grewBy)]
  · rename_i reset
    have lower := UInt64.lt_iff_toNat_lt.mp (UInt64.not_le.mp reset)
    have wentBack := Nat.cast_le (α := ℚ).mpr lower.le
    rw [max_eq_left (sub_nonpos.mpr wentBack)]
    rfl

/-- Throughput is computed for the interfaces in both samples, from their last entries there, and
each direction on its own. -/
theorem computeNetThroughput_exact (prev cur : List NetIO) (elapsedSeconds : ℚ) :
    (elapsedSeconds ≤ 0 → computeNetThroughput prev cur elapsedSeconds = ∅) ∧
    (0 < elapsedSeconds →
      (∀ name, name ∈ computeNetThroughput prev cur elapsedSeconds ↔
        (∃ p ∈ prev, p.interface = name) ∧ ∃ c ∈ cur, c.interface = name) ∧
      ∀ name p c, History.last (fun item => item.interface = name) prev = some p →
        History.last (fun item => item.interface = name) cur = some c →
          (computeNetThroughput prev cur elapsedSeconds).lookup name =
            some
              { rxBps := max 0 ((c.rxBytes.toNat : ℚ) - p.rxBytes.toNat) / elapsedSeconds
                txBps := max 0 ((c.txBytes.toNat : ℚ) - p.txBytes.toNat) / elapsedSeconds }) := by
  refine ⟨?_, ?_⟩
  · intro notPositive
    rw [computeNetThroughput, if_pos notPositive]
  · intro positive
    refine ⟨?_, ?_⟩
    · intro name
      rw [computeNetThroughput_eq_join positive, KeyedList.mem_join_iff]
    · intro name p c isPrev isCur
      rw [lookup_computeNetThroughput positive, isPrev, isCur]
      simp only [Option.bind_some, Option.map_some, throughput, toNat_counterDelta]

/-- One interface whose sent bytes have been reset, and no time at all. -/
theorem computeNetThroughput_exact_reset :
    (computeNetThroughput [⟨text "eth0", 1000, 8, 900, 7⟩] [⟨text "eth0", 3000, 16, 100, 1⟩]
        2).lookup (text "eth0") = some ⟨1000, 0⟩ ∧
      computeNetThroughput [⟨text "eth0", 1000, 8, 900, 7⟩] [⟨text "eth0", 3000, 16, 100, 1⟩] 0 =
        ∅ := by
  constructor
  · have positive : (0 : ℚ) < 2 := by norm_num
    have entry := ((computeNetThroughput_exact [⟨text "eth0", 1000, 8, 900, 7⟩]
      [⟨text "eth0", 3000, 16, 100, 1⟩] 2).2 positive).2 (text "eth0") _ _ rfl rfl
    rw [entry]
    decide +kernel
  · exact (computeNetThroughput_exact _ _ 0).1 le_rfl

end Sysmon.Stats
