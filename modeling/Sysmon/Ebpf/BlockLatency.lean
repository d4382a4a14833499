import Mathlib.Data.Nat.Size
import Sysmon.Library.BoundedMap
import Sysmon.Library.Program

/-!
# The block latency tracer

This file embeds `block_latency.c`: the two BPF maps, `pack_key`, `bucket_for`
and the two tracepoint handlers. The handlers are programs over the helper
calls they make, in the order in which they make them, so that they can be run
without interruption here and interleaved on several CPUs elsewhere.

`bucket_for` is a cascade of 23 comparisons with the powers of two. It is the
number of binary digits of its argument, cut off at 23.
-/

namespace Sysmon.Ebpf

abbrev histBuckets : ℕ := 24

abbrev startTimesMaxEntries : ℕ := 10240

/-- The fields of the tracepoint contexts that the handlers read. -/
structure BlockRq where
  dev : UInt32
  sector : UInt64
deriving DecidableEq

/-- `pack_key`: the device in the upper half, the low 32 bits of the sector in the lower half. -/
def packKey (dev : UInt32) (sector : UInt64) : UInt64 :=
  (dev.toUInt64 <<< 32) ||| (sector &&& 0xFFFFFFFF)

/-- `bucket_for`: the histogram bucket of a latency in microseconds. -/
def bucketFor (latencyUs : UInt64) : UInt32 :=
  let bucket : UInt32 := 0
  let val := latencyUs
  let bucket := if val ≥ 1 then 1 else bucket
  let bucket := if val ≥ 2 then 2 else bucket
  let bucket := if val ≥ 4 then 3 else bucket
  let bucket := if val ≥ 8 then 4 else bucket
  let bucket := if val ≥ 16 then 5 else bucket
  let bucket := if val ≥ 32 then 6 else bucket
  let bucket := if val ≥ 64 then 7 else bucket
  let bucket := if val ≥ 128 then 8 else bucket
  let bucket := if val ≥ 256 then 9 else bucket
  let bucket := if val ≥ 512 then 10 else bucket
  let bucket := if val ≥ 1024 then 11 else bucket
  let bucket := if val ≥ 2048 then 12 else bucket
  let bucket := if val ≥ 4096 then 13 else bucket
  let bucket := if val ≥ 8192 then 14 else bucket
  let bucket := if val ≥ 16384 then 15 else bucket
  let bucket := if val ≥ 32768 then 16 else bucket
  let bucket := if val ≥ 65536 then 17 else bucket
  let bucket := if val ≥ 131072 then 18 else bucket
  let bucket := if val ≥ 262144 then 19 else bucket
  let bucket := if val ≥ 524288 then 20 else bucket
  let bucket := if val ≥ 1048576 then 21 else bucket
  let bucket := if val ≥ 2097152 then 22 else bucket
  let bucket := if val ≥ 4194304 then 23 else bucket
  if bucket < UInt32.ofNat histBuckets then bucket else UInt32.ofNat histBuckets - 1

section PackKey

theorem toNat_packKey (dev : UInt32) (sector : UInt64) :
    (packKey dev sector).toNat = dev.toNat * 2 ^ 32 + sector.toNat % 2 ^ 32 := by
  have devLt : dev.toNat < 2 ^ 32 := dev.toNat_lt
  have lowLt : sector.toNat % 2 ^ 32 < 2 ^ 32 := Nat.mod_lt _ (by decide)
  have low : sector.toNat &&& 4294967295 = sector.toNat % 2 ^ 32 :=
    Nat.and_two_pow_sub_one_eq_mod sector.toNat 32
  have high : dev.toNat <<< 32 % 2 ^ 64 = dev.toNat <<< 32 := by
    rw [Nat.shiftLeft_eq]
    exact Nat.mod_eq_of_lt (by omega)
  simp only [packKey, UInt64.toNat_or, UInt64.toNat_shiftLeft, UInt64.toNat_and,
    UInt32.toNat_toUInt64]
  change (dev.toNat <<< 32 % 2 ^ 64) ||| (sector.toNat &&& 4294967295) = _
  rw [low, high, ← Nat.shiftLeft_add_eq_or_of_lt lowLt, Nat.shiftLeft_eq]

/-- Packed keys tell devices apart, and sectors only up to their low 32 bits. -/
theorem packKey_eq_iff {dev dev' : UInt32} {sector sector' : UInt64} :
    packKey dev sector = packKey dev' sector' ↔
      dev = dev' ∧ sector.toNat % 2 ^ 32 = sector'.toNat % 2 ^ 32 := by
  rw [← UInt64.toNat_inj, toNat_packKey, toNat_packKey, ← UInt32.toNat_inj]
  omega

end PackKey

section BucketFor

private def cascade (val : UInt64) : ℕ → UInt32
  | 0 => 0
  | steps + 1 =>
    if val ≥ UInt64.ofNat (2 ^ steps) then UInt32.ofNat (steps + 1) else cascade val steps

private theorem toNat_cascade (val : UInt64) {steps : ℕ} (few : steps ≤ 23) :
    (cascade val steps).toNat = min steps val.toNat.size := by
  induction steps with
  | zero => simp [cascade]
  | succ steps ih =>
      have threshold : val ≥ UInt64.ofNat (2 ^ steps) ↔ steps < val.toNat.size := by
        have fits : 2 ^ steps < 2 ^ 64 := Nat.pow_lt_pow_right (by decide) (by omega)
        rw [ge_iff_le, UInt64.le_iff_toNat_le, UInt64.toNat_ofNat_of_lt' fits, Nat.lt_size]
      rw [cascade]
      split
      · rename_i passed
        have := threshold.mp passed
        rw [UInt32.toNat_ofNat_of_lt' (by rw [UInt32.size]; omega)]
        omega
      · rename_i failed
        have := mt threshold.mpr failed
        rw [ih (by omega)]
        omega

private theorem bucketFor_eq_cascade (val : UInt64) :
    bucketFor val = if cascade val 23 < 24 then cascade val 23 else 23 := by
  rfl

/-- `bucketFor` is the number of binary digits of the latency, at most 23. -/
theorem toNat_bucketFor (latencyUs : UInt64) :
    (bucketFor latencyUs).toNat = min 23 latencyUs.toNat.size := by
  have value := toNat_cascade latencyUs le_rfl
  have small : cascade latencyUs 23 < 24 := by
    rw [UInt32.lt_iff_toNat_lt, value]
    exact (Nat.min_le_left _ _).trans_lt (by decide)
  rw [bucketFor_eq_cascade, if_pos small, value]

theorem bucketFor_lt (latencyUs : UInt64) : (bucketFor latencyUs).toNat < histBuckets := by
  rw [toNat_bucketFor]
  exact (Nat.min_le_left _ _).trans_lt (by decide)

def InBucket (bucket : Fin histBuckets) (latencyUs : ℕ) : Prop :=
  if bucket.val = 0 then latencyUs = 0
  else if bucket.val = 23 then 2 ^ 22 ≤ latencyUs
  else 2 ^ (bucket.val - 1) ≤ latencyUs ∧ latencyUs < 2 ^ bucket.val

instance (bucket : Fin histBuckets) (latencyUs : ℕ) : Decidable (InBucket bucket latencyUs) := by
  unfold InBucket
  infer_instance

theorem toNat_bucketFor_eq_iff {latencyUs : UInt64} {bucket : Fin histBuckets} :
    (bucketFor latencyUs).toNat = bucket.val ↔ InBucket bucket latencyUs.toNat := by
  rw [toNat_bucketFor, InBucket]
  have bucketLt : bucket.val < 24 := bucket.isLt
  by_cases first : bucket.val = 0
  · have zero := Nat.size_eq_zero (n := latencyUs.toNat)
    rw [if_pos first]
    omega
  · rw [if_neg first]
    by_cases final : bucket.val = 23
    · have reaches := Nat.lt_size (m := 22) (n := latencyUs.toNat)
      rw [if_pos final]
      omega
    · have lower := Nat.lt_size (m := bucket.val - 1) (n := latencyUs.toNat)
      have upper := Nat.size_le (m := latencyUs.toNat) (n := bucket.val)
      rw [if_neg final]
      omega

end BucketFor

/-- The helper calls of the handlers. A lookup answers the value behind the pointer, and
`fetchAndAdd` is `__sync_fetch_and_add(count, 1)` on a counter of `io_latency_hist`. -/
inductive BpfOp where
  | ktimeGetNs
  | startTimesLookup (key : UInt64)
  | startTimesUpdate (key value : UInt64)
  | startTimesDelete (key : UInt64)
  | fetchAndAdd (count : Fin histBuckets)
deriving DecidableEq

/-- What a helper call answers. Updates and deletes answer whether they succeeded. -/
@[reducible]
def BpfOp.Answer : BpfOp → Type
  | ktimeGetNs => UInt64
  | startTimesLookup _ => Option UInt64
  | startTimesUpdate _ _ => Bool
  | startTimesDelete _ => Bool
  | fetchAndAdd _ => Unit

abbrev BpfProgram := Program BpfOp.Answer

abbrev bpfKtimeGetNs : BpfProgram UInt64 := .perform BpfOp.ktimeGetNs

abbrev lookupStart (key : UInt64) : BpfProgram (Option UInt64) :=
  .perform (BpfOp.startTimesLookup key)

abbrev updateStart (key value : UInt64) : BpfProgram Bool :=
  .perform (BpfOp.startTimesUpdate key value)

abbrev deleteStart (key : UInt64) : BpfProgram Bool := .perform (BpfOp.startTimesDelete key)

abbrev fetchAndAdd (count : Fin histBuckets) : BpfProgram Unit :=
  .perform (BpfOp.fetchAndAdd count)

/-- `bpf_map_lookup_elem` on `io_latency_hist`: an array map has an element for every index below
its size, at a fixed place. -/
def histLookup (bucket : UInt32) : Option (Fin histBuckets) :=
  if inside : bucket.toNat < histBuckets then some ⟨bucket.toNat, inside⟩ else none

def traceRqIssue (ctx : BlockRq) : BpfProgram Unit := do
  let ts ← bpfKtimeGetNs
  let key := packKey ctx.dev ctx.sector
  let _ ← updateStart key ts
  return ()

def traceRqComplete (ctx : BlockRq) : BpfProgram Unit := do
  let key := packKey ctx.dev ctx.sector
  match ← lookupStart key with
  | none => return () -- no matching issue event (started before we attached)
  | some start =>
    let now ← bpfKtimeGetNs
    let deltaNs := now - start
    let _ ← deleteStart key
    let deltaUs := deltaNs / 1000
    let bucket := bucketFor deltaUs
    match histLookup bucket with
    | none => return ()
    | some count => fetchAndAdd count

/-- The two BPF maps. -/
@[ext]
structure KernelState where
  startTimes : BoundedMap UInt64 UInt64 startTimesMaxEntries
  ioLatencyHist : Fin histBuckets → UInt64

namespace KernelState

def loaded : KernelState where
  startTimes := .empty
  ioLatencyHist := fun _ => 0

def increment (kernel : KernelState) (bucket : Fin histBuckets) : KernelState :=
  { kernel with
    ioLatencyHist := Function.update kernel.ioLatencyHist bucket (kernel.ioLatencyHist bucket + 1) }

/-- What a helper call does to the maps when the clock shows `now`. -/
def interpret (now : UInt64) : (operation : BpfOp) → KernelState → operation.Answer × KernelState
  | .ktimeGetNs, kernel => (now, kernel)
  | .startTimesLookup key, kernel => (kernel.startTimes.lookup key, kernel)
  | .startTimesUpdate key value, kernel =>
    (decide (kernel.startTimes.Accepts key),
      { kernel with startTimes := kernel.startTimes.update key value })
  | .startTimesDelete key, kernel =>
    (decide (key ∈ kernel.startTimes.keys),
      { kernel with startTimes := kernel.startTimes.delete key })
  | .fetchAndAdd count, kernel => ((), kernel.increment count)

@[simp]
theorem loaded_startTimes : loaded.startTimes = .empty := rfl

@[simp]
theorem increment_startTimes (kernel : KernelState) (bucket : Fin histBuckets) :
    (kernel.increment bucket).startTimes = kernel.startTimes := rfl

theorem increment_ioLatencyHist (kernel : KernelState) (bucket other : Fin histBuckets) :
    (kernel.increment bucket).ioLatencyHist other =
      kernel.ioLatencyHist other + if bucket = other then 1 else 0 := by
  by_cases same : other = bucket
  · subst other
    simp [increment]
  · simp [increment, same, Ne.symm same]

theorem ioLatencyHist_interpret (now : UInt64) (operation : BpfOp) (kernel : KernelState)
    (bucket : Fin histBuckets) :
    (interpret now operation kernel).2.ioLatencyHist bucket =
      kernel.ioLatencyHist bucket + if operation = .fetchAndAdd bucket then 1 else 0 := by
  cases operation with
  | fetchAndAdd count => simp [interpret, increment_ioLatencyHist]
  | _ => simp [interpret]

end KernelState

def latencyBucket (deltaNs : UInt64) : Fin histBuckets :=
  ⟨(bucketFor (deltaNs / 1000)).toNat, bucketFor_lt _⟩

/-- The histogram lookup of `traceRqComplete` cannot miss. -/
theorem histLookup_bucketFor (deltaNs : UInt64) :
    histLookup (bucketFor (deltaNs / 1000)) = some (latencyBucket deltaNs) := by
  simp [histLookup, latencyBucket, bucketFor_lt]

theorem bucketFor_mono {latencyUs latencyUs' : UInt64} (ordered : latencyUs ≤ latencyUs') :
    bucketFor latencyUs ≤ bucketFor latencyUs' := by
  have longer := Nat.size_le_size (UInt64.le_iff_toNat_le.mp ordered)
  rw [UInt32.le_iff_toNat_le, toNat_bucketFor, toNat_bucketFor]
  exact min_le_min_left 23 longer

/-- The nanoseconds that are counted in an inner bucket. -/
theorem toNat_bucketFor_div_eq_iff {deltaNs : UInt64} {i : ℕ} (first : 1 ≤ i) (last : i ≤ 22) :
    (bucketFor (deltaNs / 1000)).toNat = i ↔
      1000 * 2 ^ (i - 1) ≤ deltaNs.toNat ∧ deltaNs.toNat < 1000 * 2 ^ i := by
  have latencyUs : (deltaNs / 1000).toNat = deltaNs.toNat / 1000 := UInt64.toNat_div _ _
  have thousand : 0 < 1000 := by decide
  have lower := Nat.lt_size (m := i - 1) (n := deltaNs.toNat / 1000)
  have upper := Nat.size_le (m := deltaNs.toNat / 1000) (n := i)
  rw [toNat_bucketFor, latencyUs, Nat.mul_comm 1000, Nat.mul_comm 1000,
    ← Nat.le_div_iff_mul_le thousand, ← Nat.div_lt_iff_lt_mul thousand, ← lower, ← upper]
  omega

/-- `bucketFor` counts binary digits up to 23. It is monotone, the lookup of its buckets cannot
miss, and the division by 1000 does not move the bounds of the inner buckets. -/
theorem bucketFor_spec :
    (∀ v, (bucketFor v).toNat = min 23 v.toNat.bits.length) ∧
    (∀ v w, v ≤ w → bucketFor v ≤ bucketFor w) ∧
    (∀ v, (bucketFor v).toNat < histBuckets ∧
      ∃ count, histLookup (bucketFor v) = some count ∧ count.val = (bucketFor v).toNat) ∧
    ∀ (deltaNs : UInt64) (i : ℕ), 1 ≤ i → i ≤ 22 →
      ((bucketFor (deltaNs / 1000)).toNat = i ↔
        1000 * 2 ^ (i - 1) ≤ deltaNs.toNat ∧ deltaNs.toNat < 1000 * 2 ^ i) := by
  refine ⟨?_, fun v w => bucketFor_mono, ?_, fun deltaNs i => toNat_bucketFor_div_eq_iff⟩
  · intro v
    rw [Nat.size_eq_bits_len, toNat_bucketFor]
  · intro v
    refine ⟨bucketFor_lt v, ⟨_, bucketFor_lt v⟩, ?_, rfl⟩
    rw [histLookup, dif_pos (bucketFor_lt v)]

/-- The last nanosecond before the third bucket. -/
theorem bucketFor_spec_instance :
    bucketFor 3 ≤ bucketFor 4 ∧ (bucketFor ((3999 : UInt64) / 1000)).toNat = 2 := by
  constructor
  · exact bucketFor_spec.2.1 3 4 (by decide)
  · exact (bucketFor_spec.2.2.2 3999 2 (by decide) (by decide)).mpr (by decide)

theorem latencyBucket_sub_eq_iff {start now : UInt64} (ordered : start ≤ now)
    {bucket : Fin histBuckets} :
    latencyBucket (now - start) = bucket ↔
      InBucket bucket ((now.toNat - start.toNat) / 1000) := by
  have latencyUs : ((now - start) / 1000).toNat = (now.toNat - start.toNat) / 1000 := by
    rw [UInt64.toNat_div, UInt64.toNat_sub_of_le _ _ ordered]
    rfl
  rw [← latencyUs, ← toNat_bucketFor_eq_iff, latencyBucket, Fin.ext_iff]

theorem traceRqIssue_eq (ctx : BlockRq) :
    traceRqIssue ctx =
      .call .ktimeGetNs fun ts =>
        .call (.startTimesUpdate (packKey ctx.dev ctx.sector) ts) fun _ => .done () :=
  rfl

/-- The helper calls of `traceRqComplete` after the time `start` was found. -/
def completeFrom (key start : UInt64) : BpfProgram Unit :=
  .call .ktimeGetNs fun (now : UInt64) =>
    .call (.startTimesDelete key) fun _ =>
      .call (.fetchAndAdd (latencyBucket (now - start))) .done

def completeAfter (key : UInt64) : Option UInt64 → BpfProgram Unit
  | none => .done ()
  | some start => completeFrom key start

theorem traceRqComplete_eq (ctx : BlockRq) :
    traceRqComplete ctx =
      .call (.startTimesLookup (packKey ctx.dev ctx.sector))
        (completeAfter (packKey ctx.dev ctx.sector)) := by
  change Program.call _ _ = Program.call _ _
  congr 1
  funext found
  cases found with
  | none => rfl
  | some start =>
      change Program.call _ _ = Program.call _ _
      congr 1
      funext now
      change Program.call _ _ = Program.call _ _
      congr 1
      funext deleted
      change (match histLookup _ with | none => _ | some count => fetchAndAdd count) = _
      rw [histLookup_bucketFor]
      rfl

section Uninterrupted

open KernelState

theorem exec_traceRqComplete (ctx : BlockRq) (now : UInt64) (kernel : KernelState) :
    ((traceRqComplete ctx).exec (interpret now) kernel).2 =
      match kernel.startTimes.lookup (packKey ctx.dev ctx.sector) with
      | none => kernel
      | some start =>
        { kernel with
          startTimes := kernel.startTimes.delete (packKey ctx.dev ctx.sector)
        }.increment (latencyBucket (now - start)) := by
  rw [traceRqComplete_eq, Program.exec_call]
  simp only [interpret]
  cases kernel.startTimes.lookup (packKey ctx.dev ctx.sector) <;> rfl

end Uninterrupted

end Sysmon.Ebpf
