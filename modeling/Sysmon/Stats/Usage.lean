import Mathlib.Algebra.Order.Field.Rat
import Mathlib.Tactic.Positivity
import Sysmon.Go.Values

/-!
# Memory and filesystem usage

This file embeds the readings of `mem.go` and `disk.go` that a refresh shows,
with the figures derived from them. What is in use is what is not free, and
nothing if more is said to be free than there is; the percentages are exact
rationals. All three figures of this kind are one function of two counters,
and so are the percentages.
-/

namespace Sysmon.Stats

open Sysmon.Go

/-- What is in use of a total of which some is free. -/
def usedOf (total free : UInt64) : UInt64 :=
  if free > total then 0 else total - free

def percentOf (used total : UInt64) : ℚ :=
  if total = 0 then 0 else (used.toNat : ℚ) / total.toNat * 100

theorem toNat_usedOf (total free : UInt64) :
    (usedOf total free).toNat = total.toNat - free.toNat := by
  rw [usedOf]
  split
  · rename_i more
    rw [Nat.sub_eq_zero_of_le (UInt64.lt_iff_toNat_lt.mp more).le]
    rfl
  · rename_i notMore
    exact UInt64.toNat_sub_of_le _ _ (UInt64.not_lt.mp notMore)

theorem usedOf_le (total free : UInt64) : usedOf total free ≤ total := by
  rw [usedOf]
  split
  · exact UInt64.zero_le
  · rename_i notMore
    apply UInt64.le_iff_toNat_le.mpr
    rw [UInt64.toNat_sub_of_le _ _ (UInt64.not_lt.mp notMore)]
    omega

/-- The reading of `/proc/meminfo`. -/
structure MemInfo where
  totalKB : UInt64
  freeKB : UInt64
  availableKB : UInt64
  buffersKB : UInt64
  cachedKB : UInt64
  swapTotalKB : UInt64
  swapFreeKB : UInt64
deriving DecidableEq

namespace MemInfo

def usedKB (m : MemInfo) : UInt64 := usedOf m.totalKB m.availableKB

def usedPercent (m : MemInfo) : ℚ := percentOf m.usedKB m.totalKB

def swapUsedKB (m : MemInfo) : UInt64 := usedOf m.swapTotalKB m.swapFreeKB

end MemInfo

structure DiskUsage where
  path : GoString
  totalBytes : UInt64
  freeBytes : UInt64
deriving DecidableEq

namespace DiskUsage

def usedBytes (d : DiskUsage) : UInt64 := usedOf d.totalBytes d.freeBytes

def usedPercent (d : DiskUsage) : ℚ := percentOf d.usedBytes d.totalBytes

end DiskUsage

/-- The fields of `syscall.Statfs_t` that are used. -/
structure Statfs where
  bsize : Int64
  blocks : UInt64
  bavail : UInt64
deriving DecidableEq

/-- What `ReadDiskUsage` returns after a successful `statfs`. -/
def Statfs.diskUsage (path : GoString) (stat : Statfs) : DiskUsage :=
  let blockSize := stat.bsize.toUInt64
  { path := path
    totalBytes := stat.blocks * blockSize
    freeBytes := stat.bavail * blockSize }

end Sysmon.Stats
