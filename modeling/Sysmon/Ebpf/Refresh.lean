import Sysmon.Ebpf.Loader
import Sysmon.Library.History

/-!
# Refreshes and failing map operations

On every tick, `run` reads the histogram and then resets it, and discards both
errors. This file says which samples survive when map operations fail. A
bucket is carried over correctly by a refresh if and only if it is shown and
cleared, or neither, or empty; a failing lookup anywhere hides the whole
frame although the buckets are cleared, and a failing put leaves the buckets
from there on to be shown again.
-/

namespace Sysmon.Ebpf

open Sysmon.Go

/-- The part of an iteration of `run` that works on the histogram. The slice is empty when
`ReadHistogram` fails; both errors are discarded. -/
def refreshLatency (errKeyNotExist : GoString) : HistProgram (List LatencyBucket) := do
  let latencyBuckets : List LatencyBucket :=
    match ← readHistogram errKeyNotExist with
    | .ok buckets => buckets
    | .error _ => []
  let _ ← resetHistogram
  return latencyBuckets

/-- What is left of a refresh once the reset has come to the given indices. -/
def resetThenShow (latencyBuckets : List LatencyBucket) (indices : List (Fin histBuckets)) :
    HistProgram (List LatencyBucket) :=
  resetBuckets indices >>= fun _ => .done latencyBuckets

def readThenReset (errKeyNotExist : GoString) (buckets : List LatencyBucket)
    (indices : List (Fin histBuckets)) : HistProgram (List LatencyBucket) :=
  readBuckets errKeyNotExist buckets indices >>= fun read =>
    resetThenShow (match read with | .ok buckets => buckets | .error _ => [])
      (List.finRange histBuckets)

/-- The count that a frame shows for a bucket; an empty frame is not rendered. -/
def shownIn (latencyBuckets : List LatencyBucket) (i : Fin histBuckets) : UInt64 :=
  (latencyBuckets[i.val]?.map LatencyBucket.count).getD 0

def shownTotal (frames : List (List LatencyBucket)) (i : Fin histBuckets) : ℕ :=
  (frames.map fun frame => (shownIn frame i).toNat).sum

@[simp]
theorem shownTotal_nil (i : Fin histBuckets) : shownTotal [] i = 0 := rfl

@[simp]
theorem shownTotal_concat (frames : List (List LatencyBucket)) (frame : List LatencyBucket)
    (i : Fin histBuckets) :
    shownTotal (frames ++ [frame]) i = shownTotal frames i + (shownIn frame i).toNat := by
  simp [shownTotal]

/-! ## One refresh -/

section Refresh

variable (errKeyNotExist : GoString) (fault : HistOp → Option GoString)

def Shows (i : Fin histBuckets) : Prop :=
  (∀ j, ∀ err ∈ fault (.lookup j), isNotFound errKeyNotExist (some err)) ∧
    fault (.lookup i) = none

def Clears (i : Fin histBuckets) : Prop :=
  ∀ j ≤ i, fault (.put j 0) = none

instance : DecidablePred (Shows errKeyNotExist fault) := fun i =>
  inferInstanceAs (Decidable ((∀ j, ∀ err ∈ fault (.lookup j), _) ∧ fault (.lookup i) = none))

instance : DecidablePred (Clears fault) := fun i =>
  inferInstanceAs (Decidable (∀ j ≤ i, fault (.put j 0) = none))

private theorem mem_takeWhile_of_pairwise {selects : Fin histBuckets → Bool}
    {indices : List (Fin histBuckets)} (sorted : indices.Pairwise (· < ·)) (i : Fin histBuckets) :
    i ∈ indices.takeWhile selects ↔ i ∈ indices ∧ ∀ j ∈ indices, j ≤ i → selects j := by
  induction indices with
  | nil => simp
  | cons first rest ih =>
      rcases List.pairwise_cons.mp sorted with ⟨firstLt, sortedRest⟩
      by_cases selected : selects first
      · have later : i ∈ rest → first ≤ i := by
          intro present
          exact (firstLt i present).le
        simp only [List.takeWhile_cons, selected, if_true, List.mem_cons, ih sortedRest,
          forall_eq_or_imp, implies_true, true_and]
        constructor
        · rintro (rfl | ⟨present, upTo⟩)
          · exact ⟨Or.inl rfl, fun j present le => absurd (firstLt j present) le.not_gt⟩
          · exact ⟨Or.inr present, upTo⟩
        · rintro ⟨rfl | present, upTo⟩
          · exact Or.inl rfl
          · exact Or.inr ⟨present, upTo⟩
      · simp only [List.takeWhile_cons, selected, List.mem_cons]
        simp only [Bool.false_eq_true, if_false, List.not_mem_nil, false_iff, not_and]
        rintro (rfl | present) upTo
        · exact selected (upTo _ (Or.inl rfl) le_rfl)
        · exact selected (upTo first (Or.inl rfl) (firstLt i present).le)

private theorem mem_takeWhile_finRange (i : Fin histBuckets) :
    i ∈ (List.finRange histBuckets).takeWhile (fun j => (fault (.put j 0)).isNone) ↔
      Clears fault i := by
  rw [mem_takeWhile_of_pairwise (List.pairwise_lt_finRange _)]
  simp [Clears]

theorem ioLatencyHist_refreshLatency (kernel : KernelState) (i : Fin histBuckets) :
    ((refreshLatency errKeyNotExist).exec (HistOp.interpret fault) kernel).2.ioLatencyHist i =
      if Clears fault i then 0 else kernel.ioLatencyHist i := by
  rw [refreshLatency, Program.exec_bind, readHistogram, exec_readBuckets, Program.exec_bind,
    resetHistogram, exec_resetBuckets]
  simp only [Program.pure_eq_done, Program.exec_done, mem_takeWhile_finRange]

theorem shownIn_refreshLatency (kernel : KernelState) (i : Fin histBuckets) :
    shownIn ((refreshLatency errKeyNotExist).exec (HistOp.interpret fault) kernel).1 i =
      if Shows errKeyNotExist fault i then kernel.ioLatencyHist i else 0 := by
  rw [refreshLatency, Program.exec_bind, readHistogram, exec_readBuckets, Program.exec_bind]
  simp only [Program.pure_eq_done, Program.exec_done, List.nil_append]
  cases failed : (List.finRange histBuckets).findSome? (readFailure errKeyNotExist fault) with
  | none =>
      have tolerated : ∀ j, ∀ err ∈ fault (.lookup j), isNotFound errKeyNotExist (some err) := by
        intro j err isFault
        have noFailure := List.findSome?_eq_none_iff.mp failed j (List.mem_finRange j)
        rw [readFailure, isFault] at noFailure
        simpa using noFailure
      have entry : ((List.finRange histBuckets).map
          fun j => readBucket j (readCount fault kernel j))[i.val]? =
            some (readBucket i (readCount fault kernel i)) := by
        simp
      have shows : Shows errKeyNotExist fault i ↔ fault (.lookup i) = none :=
        and_iff_right tolerated
      change shownIn ((List.finRange histBuckets).map
        fun j => readBucket j (readCount fault kernel j)) i = _
      rw [shownIn, entry]
      simp only [Option.map_some, Option.getD_some, readBucket, readCount, shows]
      cases fault (.lookup i) <;> simp
  | some message =>
      rcases List.exists_of_findSome?_eq_some failed with ⟨j, _, fails⟩
      have hidden : ¬Shows errKeyNotExist fault i := by
        rintro ⟨tolerated, _⟩
        rcases Option.bind_eq_some_iff.mp fails with ⟨err, isFault, fatal⟩
        simp [tolerated j err isFault] at fatal
      simp [hidden, shownIn]

end Refresh

/-! ## Any number of refreshes -/

/-- Increments, and the refresh that follows them with its failures. -/
structure Round where
  increments : List (Fin histBuckets)
  fault : HistOp → Option GoString

structure Session where
  kernel : KernelState
  frames : List (List LatencyBucket)

def Round.refreshed (round : Round) (kernel : KernelState) : KernelState :=
  round.increments.foldl KernelState.increment kernel

def Session.play (errKeyNotExist : GoString) (session : Session) (round : Round) : Session :=
  let refreshed :=
    (refreshLatency errKeyNotExist).exec (HistOp.interpret round.fault)
      (round.refreshed session.kernel)
  { kernel := refreshed.2
    frames := session.frames ++ [refreshed.1] }

def session (errKeyNotExist : GoString) (rounds : List Round) : Session :=
  rounds.foldl (Session.play errKeyNotExist) ⟨.loaded, []⟩

def incrementsOf (rounds : List Round) (i : Fin histBuckets) : ℕ :=
  (rounds.map fun round => round.increments.count i).sum

/-- Every increment is either shown in exactly one frame or still counted. -/
def Balanced (errKeyNotExist : GoString) (rounds : List Round) : Prop :=
  ∀ i, shownTotal (session errKeyNotExist rounds).frames i +
    ((session errKeyNotExist rounds).kernel.ioLatencyHist i).toNat = incrementsOf rounds i

/-- The counter of each bucket does not overflow before the refresh of the round, and the refresh
shows the bucket if and only if it clears it, unless the counter is zero. -/
def CarriesOver (errKeyNotExist : GoString) (before : List Round) (round : Round) : Prop :=
  ∀ i, let count := ((session errKeyNotExist before).kernel.ioLatencyHist i).toNat +
      round.increments.count i
    count < 2 ^ 64 ∧ (count = 0 ∨ (Shows errKeyNotExist round.fault i ↔ Clears round.fault i))

instance (errKeyNotExist : GoString) (before : List Round) :
    DecidablePred (CarriesOver errKeyNotExist before) := fun _ =>
  inferInstanceAs (Decidable (∀ _, _ ∧ _))

section Session

variable {errKeyNotExist : GoString} {rounds : List Round} {round : Round}

theorem session_concat :
    session errKeyNotExist (rounds ++ [round]) =
      (session errKeyNotExist rounds).play errKeyNotExist round := by
  simp [session]

@[simp]
theorem incrementsOf_concat (i : Fin histBuckets) :
    incrementsOf (rounds ++ [round]) i = incrementsOf rounds i + round.increments.count i := by
  simp [incrementsOf]

theorem ioLatencyHist_refreshed (round : Round) (kernel : KernelState) (i : Fin histBuckets) :
    (round.refreshed kernel).ioLatencyHist i =
      kernel.ioLatencyHist i + UInt64.ofNat (round.increments.count i) := by
  rw [Round.refreshed]
  induction round.increments generalizing kernel with
  | nil => simp
  | cons bucket increments ih =>
      rw [List.foldl_cons, ih, KernelState.increment_ioLatencyHist, List.count_cons,
        UInt64.ofNat_add]
      by_cases same : bucket = i
      · simp [same, UInt64.add_assoc, UInt64.add_comm 1]
      · simp [same]

theorem balanced_concat (balanced : Balanced errKeyNotExist rounds) :
    Balanced errKeyNotExist (rounds ++ [round]) ↔ CarriesOver errKeyNotExist rounds round := by
  refine forall_congr' fun i => ?_
  have before := balanced i
  have counter : ((session errKeyNotExist rounds).kernel.ioLatencyHist i +
      UInt64.ofNat (round.increments.count i)).toNat =
        (((session errKeyNotExist rounds).kernel.ioLatencyHist i).toNat +
          round.increments.count i) % 2 ^ 64 := by
    simp [UInt64.toNat_add]
  rw [session_concat, Session.play]
  simp only [shownTotal_concat, shownIn_refreshLatency, ioLatencyHist_refreshLatency,
    ioLatencyHist_refreshed, incrementsOf_concat]
  by_cases shows : Shows errKeyNotExist round.fault i <;>
    by_cases clears : Clears round.fault i <;>
    simp only [shows, clears, if_true, if_false, counter, UInt64.toNat_zero, iff_true, iff_false,
      not_true, or_true, or_false, and_true] <;>
    omega

/-- Failing map operations lose or repeat samples exactly when they break a round: in a session,
every increment is shown once or still counted after every refresh, if and only if every round
carries every bucket over. -/
theorem balanced_throughout_iff (errKeyNotExist : GoString) (rounds : List Round) :
    History.Throughout (Balanced errKeyNotExist) rounds ↔
      History.Along (CarriesOver errKeyNotExist) rounds := by
  induction rounds using List.reverseRecOn with
  | nil =>
      have start : Balanced errKeyNotExist [] := by
        intro i
        simp [session, incrementsOf, KernelState.loaded]
      simpa [History.Throughout] using start
  | append_singleton rounds round ih =>
      rw [History.throughout_concat, History.along_concat, ← ih]
      exact and_congr_right fun throughout => balanced_concat throughout.self

/-- A lookup that fails on bucket 5 hides the frame, and the sample in bucket 0 is erased; a put
that fails on bucket 5 leaves the sample in bucket 7 to be shown again. -/
theorem failing_operations_unbalance :
    ¬(∀ rounds, History.Throughout (Balanced (text "key does not exist")) rounds) ∧
    ¬Balanced (text "key does not exist")
      [⟨[7], fun operation => if operation = .put 5 0 then some (text "EPERM") else none⟩] := by
  constructor
  · intro balanced
    have erased := (balanced
      [⟨[0], fun operation => if operation = .lookup 5 then some (text "EPERM") else none⟩]).self 0
    revert erased
    decide +kernel
  · intro balanced
    have repeated := balanced 7
    revert repeated
    decide +kernel

end Session

end Sysmon.Ebpf
