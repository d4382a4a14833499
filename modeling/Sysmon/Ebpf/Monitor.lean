import Mathlib.Algebra.Order.BigOperators.Group.Finset
import Mathlib.Data.Int.ModEq
import Sysmon.Ebpf.Handlers
import Sysmon.Ebpf.Refresh

/-!
# Refreshes beside the tracer

The tracepoint handlers go on while a refresh reads and resets the histogram.
A `Monitor` interleaves the helper calls of handlers, in any order, with the
48 map operations of each refresh. This file determines what becomes of every
single increment of a counter. Refreshes are numbered from zero, and an
increment of bucket `i` belongs to the first frame whose `Lookup(i)` is still
to come, unless it comes between the `Lookup(i)` and the `Put(i, 0)` of one
refresh: such an increment is never shown.
-/

namespace Sysmon.Ebpf

open Sysmon.Go

/-- The maps, what is left of the refresh in progress, and the frames shown so far. -/
structure Monitor where
  kernel : KernelState
  refresh : Option (HistProgram (List LatencyBucket))
  frames : List (List LatencyBucket)

/-- A step of the tracer or of the refresh loop: a handler performs a helper call while the clock
shows `now`, the ticker starts a refresh, or the refresh performs its next map operation, which
may fail with an error. -/
inductive MonitorStep where
  | handler (now : UInt64) (operation : BpfOp)
  | tick
  | refresh (fault : Option GoString)
deriving DecidableEq

/-- What happens in a step. -/
inductive MonitorEvent where
  | handled (operation : BpfOp)
  | started
  | performed (operation : HistOp)
deriving DecidableEq

def MonitorStep.Succeeds (step : MonitorStep) : Prop :=
  ∀ err, step ≠ .refresh (some err)

namespace Monitor

def loaded : Monitor := ⟨.loaded, none, []⟩

/-- The monitor after an operation of the refresh; a refresh that is done shows its frame. -/
def resume (monitor : Monitor) (kernel : KernelState) :
    HistProgram (List LatencyBucket) → Monitor
  | .done latencyBuckets => ⟨kernel, none, monitor.frames ++ [latencyBuckets]⟩
  | .call operation next => ⟨kernel, some (.call operation next), monitor.frames⟩

/-- The tracer and the refresh loop side by side. -/
def step (errKeyNotExist : GoString) : Machine Monitor MonitorStep MonitorEvent
  | monitor, .handler now operation =>
    some (.handled operation, { monitor with kernel := (monitor.kernel.interpret now operation).2 })
  | monitor, .tick =>
    match monitor.refresh with
    | none => some (.started, { monitor with refresh := some (refreshLatency errKeyNotExist) })
    | some _ => none
  | monitor, .refresh fault =>
    match monitor.refresh with
    | some (.call operation next) =>
      let outcome := operation.interpret (fun _ => fault) monitor.kernel
      some (.performed operation, monitor.resume outcome.2 (next outcome.1))
    | _ => none

end Monitor

/-! ## What becomes of an increment -/

def Increments (i : Fin histBuckets) (_before : List MonitorEvent) (event : MonitorEvent) : Prop :=
  event = .handled (.fetchAndAdd i)

def lookups (i : Fin histBuckets) : List MonitorEvent → ℕ :=
  History.count fun _ event => event = .performed (.lookup i)

def puts (i : Fin histBuckets) : List MonitorEvent → ℕ :=
  History.count fun _ event => event = .performed (.put i 0)

/-- The increment comes after the previous refresh has cleared the bucket, and before the given
refresh looks it up. -/
def InFrame (i : Fin histBuckets) (refresh : ℕ) (before : List MonitorEvent)
    (event : MonitorEvent) : Prop :=
  Increments i before event ∧ refresh ≤ puts i before ∧ lookups i before ≤ refresh

/-- The increment comes after a refresh has looked the bucket up, and before the same refresh
clears it. -/
def BetweenReadAndReset (i : Fin histBuckets) (before : List MonitorEvent)
    (event : MonitorEvent) : Prop :=
  Increments i before event ∧ puts i before < lookups i before

instance (i : Fin histBuckets) (before : List MonitorEvent) :
    DecidablePred (Increments i before) := fun _ => inferInstanceAs (Decidable (_ = _))

instance (i : Fin histBuckets) (refresh : ℕ) (before : List MonitorEvent) :
    DecidablePred (InFrame i refresh before) := fun _ => inferInstanceAs (Decidable (_ ∧ _))

instance (i : Fin histBuckets) (before : List MonitorEvent) :
    DecidablePred (BetweenReadAndReset i before) := fun _ => inferInstanceAs (Decidable (_ ∧ _))

@[simp]
theorem lookups_concat (i : Fin histBuckets) (events : List MonitorEvent) (event : MonitorEvent) :
    lookups i (events ++ [event]) =
      lookups i events + if event = .performed (.lookup i) then 1 else 0 :=
  History.count_concat events event

@[simp]
theorem puts_concat (i : Fin histBuckets) (events : List MonitorEvent) (event : MonitorEvent) :
    puts i (events ++ [event]) =
      puts i events + if event = .performed (.put i 0) then 1 else 0 :=
  History.count_concat events event

/-- The account of one bucket in the middle of a run. The bucket is looked up and cleared in turn,
every increment so far belongs to one frame or to none, and while the bucket is not being reset
its counter holds the increments of the next frame. -/
structure Account (i : Fin histBuckets) (events : List MonitorEvent) (counter : UInt64) :
    Prop where
  puts_le_lookups : History.Throughout (fun before => puts i before ≤ lookups i before) events
  lookups_le : lookups i events ≤ puts i events + 1
  later : ∀ refresh, puts i events < refresh → History.count (InFrame i refresh) events = 0
  total : History.count (Increments i) events =
    ∑ refresh ∈ Finset.range (puts i events + 1), History.count (InFrame i refresh) events +
      History.count (BetweenReadAndReset i) events
  counter : lookups i events = puts i events →
    counter = UInt64.ofNat (History.count (InFrame i (puts i events)) events)

namespace Account

variable {i : Fin histBuckets} {events : List MonitorEvent} {counter : UInt64}

theorem loaded (i : Fin histBuckets) : Account i [] 0 where
  puts_le_lookups := by
    intro before isPrefix
    rw [List.prefix_nil.mp isPrefix]
    exact le_rfl
  lookups_le := Nat.zero_le _
  later := fun _ _ => rfl
  total := rfl
  counter := fun _ => rfl

theorem other (account : Account i events counter) {event : MonitorEvent}
    (noIncrement : event ≠ .handled (.fetchAndAdd i))
    (noLookup : event ≠ .performed (.lookup i)) (noPut : event ≠ .performed (.put i 0)) :
    Account i (events ++ [event]) counter where
  puts_le_lookups := by
    rw [History.throughout_concat]
    exact ⟨account.puts_le_lookups, by simpa [noLookup, noPut] using account.puts_le_lookups.self⟩
  lookups_le := by simpa [noLookup, noPut] using account.lookups_le
  later := by simpa [noPut, InFrame, Increments, noIncrement] using account.later
  total := by
    simpa [noPut, InFrame, BetweenReadAndReset, Increments, noIncrement] using account.total
  counter := by
    simpa [noLookup, noPut, InFrame, Increments, noIncrement] using account.counter

/-- An increment belongs to the next frame, or to none in the middle of a reset. -/
theorem increment (account : Account i events counter) :
    Account i (events ++ [.handled (.fetchAndAdd i)]) (counter + 1) where
  puts_le_lookups := by
    rw [History.throughout_concat]
    exact ⟨account.puts_le_lookups, by simpa using account.puts_le_lookups.self⟩
  lookups_le := by simpa using account.lookups_le
  later := by
    intro refresh isLater
    simp only [puts_concat, reduceCtorEq, if_false, add_zero] at isLater
    simp [account.later refresh isLater, InFrame, isLater.not_ge]
  total := by
    have ordered := account.puts_le_lookups.self
    have bound := account.lookups_le
    have added : ∑ refresh ∈ Finset.range (puts i events + 1),
        (if refresh ≤ puts i events ∧ lookups i events ≤ refresh then 1 else 0) =
          if lookups i events ≤ puts i events then 1 else 0 := by
      rw [Finset.sum_eq_single (puts i events)]
      · simp
      · intro refresh _ different
        rw [if_neg]
        omega
      · simp
    simp only [History.count_concat, puts_concat, InFrame, BetweenReadAndReset, Increments,
      reduceCtorEq, if_true, if_false, true_and, add_zero, Finset.sum_add_distrib, added]
    have total := account.total
    split <;> split <;> omega
  counter := by
    intro same
    simp only [lookups_concat, puts_concat, reduceCtorEq, if_false, add_zero] at same ⊢
    simp only [History.count_concat, InFrame, Increments, same, le_refl, and_self, if_true,
      UInt64.ofNat_add]
    rw [account.counter same]
    rfl

theorem lookup (account : Account i events counter) (same : lookups i events = puts i events) :
    Account i (events ++ [.performed (.lookup i)]) counter where
  puts_le_lookups := by
    rw [History.throughout_concat]
    exact ⟨account.puts_le_lookups, by simp [same]⟩
  lookups_le := by simp [same]
  later := by simpa [InFrame, Increments] using account.later
  total := by simpa [InFrame, BetweenReadAndReset, Increments] using account.total
  counter := by simp [same]

theorem put (account : Account i events counter)
    (started : lookups i events = puts i events + 1) :
    Account i (events ++ [.performed (.put i 0)]) 0 where
  puts_le_lookups := by
    rw [History.throughout_concat]
    exact ⟨account.puts_le_lookups, by simp [started]⟩
  lookups_le := by simp [started]
  later := by
    intro refresh isLater
    simp only [puts_concat, if_true] at isLater
    simpa [InFrame, Increments] using account.later refresh (by omega)
  total := by
    have next := account.later (puts i events + 1) (by omega)
    have total := account.total
    simp [InFrame, BetweenReadAndReset, Increments, Finset.sum_range_succ _ (puts i events + 1),
      next, total]
  counter := by
    have next := account.later (puts i events + 1) (by omega)
    simp [InFrame, Increments, next]

end Account

/-! ## Where a refresh has come to -/

def frameOf (events : List MonitorEvent) (refresh : ℕ) : List LatencyBucket :=
  (List.finRange histBuckets).map fun i =>
    readBucket i (UInt64.ofNat (History.count (InFrame i refresh) events))

/-- The state of the refresh loop, as far as the events determine it: how many refreshes are
complete, which buckets the current one has looked up and cleared, and what it will show. -/
inductive Phase (errKeyNotExist : GoString) (events : List MonitorEvent) (refresh : ℕ) :
    Option (HistProgram (List LatencyBucket)) → Prop
  | idle (looked : ∀ i, lookups i events = refresh) (cleared : ∀ i, puts i events = refresh) :
    Phase errKeyNotExist events refresh none
  | reading (done : List (Fin histBuckets)) (next : Fin histBuckets)
    (rest : List (Fin histBuckets)) (split : done ++ next :: rest = List.finRange histBuckets)
    (looked : ∀ i ∈ done, lookups i events = refresh + 1)
    (unlooked : ∀ i ∈ next :: rest, lookups i events = refresh)
    (uncleared : ∀ i, puts i events = refresh) :
    Phase errKeyNotExist events refresh (some (readThenReset errKeyNotExist
      (done.map fun i => readBucket i (UInt64.ofNat (History.count (InFrame i refresh) events)))
      (next :: rest)))
  | resetting (done : List (Fin histBuckets)) (next : Fin histBuckets)
    (rest : List (Fin histBuckets)) (split : done ++ next :: rest = List.finRange histBuckets)
    (looked : ∀ i, lookups i events = refresh + 1)
    (cleared : ∀ i ∈ done, puts i events = refresh + 1)
    (uncleared : ∀ i ∈ next :: rest, puts i events = refresh) :
    Phase errKeyNotExist events refresh
      (some (resetThenShow (frameOf events refresh) (next :: rest)))

/-- Frames are full and exact, and so are the accounts of all buckets. -/
structure Accounted (errKeyNotExist : GoString) (events : List MonitorEvent) (monitor : Monitor) :
    Prop where
  account : ∀ i, Account i events (monitor.kernel.ioLatencyHist i)
  phase : Phase errKeyNotExist events monitor.frames.length monitor.refresh
  frames : monitor.frames = (List.range monitor.frames.length).map (frameOf events)

section Steps

variable {errKeyNotExist : GoString} {events : List MonitorEvent} {monitor : Monitor}

theorem step_readThenReset {buckets : List LatencyBucket} {i : Fin histBuckets}
    {rest : List (Fin histBuckets)}
    (program : monitor.refresh = some (readThenReset errKeyNotExist buckets (i :: rest))) :
    monitor.step errKeyNotExist (.refresh none) =
      some (.performed (.lookup i), monitor.resume monitor.kernel (readThenReset errKeyNotExist
        (buckets ++ [readBucket i (monitor.kernel.ioLatencyHist i)]) rest)) := by
  simp only [Monitor.step, program]
  rfl

theorem step_resetThenShow {latencyBuckets : List LatencyBucket} {i : Fin histBuckets}
    {rest : List (Fin histBuckets)}
    (program : monitor.refresh = some (resetThenShow latencyBuckets (i :: rest))) :
    monitor.step errKeyNotExist (.refresh none) =
      some (.performed (.put i 0), monitor.resume
        { monitor.kernel with
          ioLatencyHist := Function.update monitor.kernel.ioLatencyHist i 0 }
        (resetThenShow latencyBuckets rest)) := by
  simp only [Monitor.step, program]
  rfl

/-- A frame does not change once its refresh has looked the bucket up. -/
theorem count_inFrame_concat {i : Fin histBuckets} {refresh : ℕ} {event : MonitorEvent}
    (fixed : refresh < lookups i events ∨ event ≠ .handled (.fetchAndAdd i)) :
    History.count (InFrame i refresh) (events ++ [event]) =
      History.count (InFrame i refresh) events := by
  rw [History.count_concat, if_neg, add_zero]
  rintro ⟨isIncrement, _, notLooked⟩
  rcases fixed with looked | noIncrement
  · omega
  · exact noIncrement isIncrement

theorem frameOf_concat {refresh : ℕ} {event : MonitorEvent}
    (fixed : ∀ i, refresh < lookups i events ∨ event ≠ .handled (.fetchAndAdd i)) :
    frameOf (events ++ [event]) refresh = frameOf events refresh := by
  simp only [frameOf, count_inFrame_concat (fixed _)]

theorem Phase.le_lookups {refresh : ℕ} {program : Option (HistProgram (List LatencyBucket))}
    (phase : Phase errKeyNotExist events refresh program) (i : Fin histBuckets) :
    refresh ≤ lookups i events := by
  cases phase with
  | idle looked cleared => exact (looked i).ge
  | reading done next rest split looked unlooked uncleared =>
      have present : i ∈ done ++ next :: rest := split ▸ List.mem_finRange i
      rcases List.mem_append.mp present with isDone | isRest
      · rw [looked i isDone]
        omega
      · exact (unlooked i isRest).ge
  | resetting done next rest split looked cleared uncleared =>
      rw [looked i]
      omega

theorem Accounted.frames_concat (accounted : Accounted errKeyNotExist events monitor)
    (event : MonitorEvent) :
    monitor.frames =
      (List.range monitor.frames.length).map (frameOf (events ++ [event])) := by
  refine accounted.frames.trans (List.map_congr_left fun refresh present => ?_)
  refine (frameOf_concat fun i => Or.inl ?_).symm
  exact (List.mem_range.mp present).trans_le (accounted.phase.le_lookups i)

theorem Phase.other {refresh : ℕ} {program : Option (HistProgram (List LatencyBucket))}
    (phase : Phase errKeyNotExist events refresh program) (event : MonitorEvent)
    (notPerformed : ∀ operation, event ≠ .performed operation) :
    Phase errKeyNotExist (events ++ [event]) refresh program := by
  have sameLookups : ∀ i, lookups i (events ++ [event]) = lookups i events := by
    simp [notPerformed]
  have samePuts : ∀ i, puts i (events ++ [event]) = puts i events := by
    simp [notPerformed]
  cases phase with
  | idle looked cleared =>
      apply Phase.idle <;> simpa only [sameLookups, samePuts]
  | reading done next rest split looked unlooked uncleared =>
      have sameBuckets : (done.map fun i =>
          readBucket i (UInt64.ofNat (History.count (InFrame i refresh) events))) =
          done.map fun i => readBucket i
            (UInt64.ofNat (History.count (InFrame i refresh) (events ++ [event]))) := by
        refine List.map_congr_left fun i isDone => ?_
        rw [count_inFrame_concat (Or.inl (by rw [looked i isDone]; omega))]
      rw [sameBuckets]
      apply Phase.reading <;> simpa only [sameLookups, samePuts]
  | resetting done next rest split looked cleared uncleared =>
      rw [← frameOf_concat fun i => Or.inl (by rw [looked i]; omega)]
      apply Phase.resetting done <;> simpa only [sameLookups, samePuts]

theorem Accounted.handled (accounted : Accounted errKeyNotExist events monitor) (now : UInt64)
    (operation : BpfOp) :
    Accounted errKeyNotExist (events ++ [.handled operation])
      { monitor with kernel := (monitor.kernel.interpret now operation).2 } where
  account i := by
    have account := accounted.account i
    rw [KernelState.ioLatencyHist_interpret]
    by_cases isIncrement : operation = .fetchAndAdd i
    · rw [if_pos isIncrement, isIncrement]
      exact account.increment
    · rw [if_neg isIncrement]
      simpa using account.other (by simpa using isIncrement) (by simp) (by simp)
  phase := accounted.phase.other _ (by simp)
  frames := accounted.frames_concat _

theorem Accounted.started (accounted : Accounted errKeyNotExist events monitor)
    (idle : monitor.refresh = none) :
    Accounted errKeyNotExist (events ++ [.started])
      { monitor with refresh := some (refreshLatency errKeyNotExist) } where
  account i := (accounted.account i).other (by simp) (by simp) (by simp)
  phase := by
    have phase := accounted.phase.other .started (by simp)
    rw [idle] at phase
    cases phase with
    | idle looked cleared =>
        exact .reading [] 0 (List.finRange histBuckets).tail (by decide) (by simp)
          (fun i _ => looked i) cleared
  frames := accounted.frames_concat _

/-- A refresh that has come to `next` handles it once more than before, and no other bucket. -/
private theorem advance {done rest : List (Fin histBuckets)} {next : Fin histBuckets}
    (split : done ++ next :: rest = List.finRange histBuckets) {refresh : ℕ}
    {handled : Fin histBuckets → ℕ} (handledNow : Fin histBuckets → ℕ)
    (added : ∀ i, handledNow i = handled i + if next = i then 1 else 0)
    (isDone : ∀ i ∈ done, handled i = refresh + 1)
    (isLeft : ∀ i ∈ next :: rest, handled i = refresh) :
    (∀ i ∈ done ++ [next], handledNow i = refresh + 1) ∧ ∀ i ∈ rest, handledNow i = refresh := by
  have nodup : (done ++ next :: rest).Nodup := split ▸ List.nodup_finRange histBuckets
  rw [List.nodup_append, List.nodup_cons] at nodup
  constructor
  · intro i present
    rcases List.mem_append.mp present with before | isNext
    · have different : next ≠ i := (nodup.2.2 i before next List.mem_cons_self).symm
      rw [added, if_neg different, add_zero, isDone i before]
    · rw [List.mem_singleton.mp isNext, added, if_pos rfl, isLeft next List.mem_cons_self]
  · intro i after
    have different : next ≠ i := by
      rintro rfl
      exact nodup.2.1.1 after
    rw [added, if_neg different, add_zero, isLeft i (List.mem_cons_of_mem next after)]

/-- After the last bucket, what holds of the buckets that have been handled holds of all. -/
private theorem holds_of_split {holds : Fin histBuckets → Prop} {done : List (Fin histBuckets)}
    (split : done = List.finRange histBuckets) (handled : ∀ i ∈ done, holds i)
    (i : Fin histBuckets) : holds i := by
  apply handled i
  rw [split]
  exact List.mem_finRange i

theorem Accounted.read (accounted : Accounted errKeyNotExist events monitor)
    {done rest : List (Fin histBuckets)} {next : Fin histBuckets}
    (split : done ++ next :: rest = List.finRange histBuckets)
    (looked : ∀ i ∈ done, lookups i events = monitor.frames.length + 1)
    (unlooked : ∀ i ∈ next :: rest, lookups i events = monitor.frames.length)
    (uncleared : ∀ i, puts i events = monitor.frames.length) :
    Accounted errKeyNotExist (events ++ [.performed (.lookup next)])
      (monitor.resume monitor.kernel (readThenReset errKeyNotExist
        ((done.map fun i => readBucket i
          (UInt64.ofNat (History.count (InFrame i monitor.frames.length) events))) ++
            [readBucket next (monitor.kernel.ioLatencyHist next)]) rest)) := by
  have nextUnlooked := unlooked next List.mem_cons_self
  have counter := (accounted.account next).counter (by rw [nextUnlooked, uncleared])
  have sameCount : ∀ i, History.count (InFrame i monitor.frames.length)
      (events ++ [.performed (.lookup next)]) =
        History.count (InFrame i monitor.frames.length) events := by
    intro i
    apply count_inFrame_concat
    simp
  have buckets : (done.map fun i => readBucket i
      (UInt64.ofNat (History.count (InFrame i monitor.frames.length) events))) ++
        [readBucket next (monitor.kernel.ioLatencyHist next)] =
      (done ++ [next]).map fun i => readBucket i (UInt64.ofNat
        (History.count (InFrame i monitor.frames.length)
          (events ++ [.performed (.lookup next)]))) := by
    rw [uncleared] at counter
    simp only [sameCount, counter, List.map_append, List.map_singleton]
  have account : ∀ i, Account i (events ++ [.performed (.lookup next)])
      (monitor.kernel.ioLatencyHist i) := by
    intro i
    by_cases own : i = next
    · subst own
      exact (accounted.account i).lookup (by rw [nextUnlooked, uncleared])
    · exact (accounted.account i).other (by simp) (by simp [Ne.symm own]) (by simp)
  rcases advance split (fun i => lookups i (events ++ [.performed (.lookup next)]))
    (by simp) looked unlooked with ⟨lookedNow, unlookedNow⟩
  have unclearedNow : ∀ i,
      puts i (events ++ [.performed (.lookup next)]) = monitor.frames.length := by
    simp [uncleared]
  rw [buckets]
  cases rest with
  | nil =>
      have allLooked := holds_of_split split lookedNow
      rw [split]
      exact ⟨account, .resetting [] 0 (List.finRange histBuckets).tail (by decide) allLooked
        (by simp) (fun i _ => unclearedNow i), accounted.frames_concat _⟩
  | cons following rest =>
      change Accounted errKeyNotExist _
        ⟨_, some (readThenReset errKeyNotExist _ (following :: rest)), monitor.frames⟩
      exact ⟨account, .reading (done ++ [next]) following rest (by simpa using split) lookedNow
        unlookedNow unclearedNow, accounted.frames_concat _⟩

theorem Accounted.cleared (accounted : Accounted errKeyNotExist events monitor)
    {done rest : List (Fin histBuckets)} {next : Fin histBuckets}
    (split : done ++ next :: rest = List.finRange histBuckets)
    (looked : ∀ i, lookups i events = monitor.frames.length + 1)
    (cleared : ∀ i ∈ done, puts i events = monitor.frames.length + 1)
    (uncleared : ∀ i ∈ next :: rest, puts i events = monitor.frames.length) :
    Accounted errKeyNotExist (events ++ [.performed (.put next 0)])
      (monitor.resume
        { monitor.kernel with
          ioLatencyHist := Function.update monitor.kernel.ioLatencyHist next 0 }
        (resetThenShow (frameOf events monitor.frames.length) rest)) := by
  have nextUncleared := uncleared next List.mem_cons_self
  have frame : frameOf events monitor.frames.length =
      frameOf (events ++ [.performed (.put next 0)]) monitor.frames.length :=
    (frameOf_concat fun _ => Or.inr (by simp)).symm
  have account : ∀ i, Account i (events ++ [.performed (.put next 0)])
      (Function.update monitor.kernel.ioLatencyHist next 0 i) := by
    intro i
    by_cases own : i = next
    · subst own
      rw [Function.update_self]
      exact (accounted.account i).put (by rw [looked, nextUncleared])
    · rw [Function.update_of_ne own]
      exact (accounted.account i).other (by simp) (by simp) (by simp [Ne.symm own])
  have lookedNow : ∀ i,
      lookups i (events ++ [.performed (.put next 0)]) = monitor.frames.length + 1 := by
    simp [looked]
  rcases advance split (fun i => puts i (events ++ [.performed (.put next 0)]))
    (by simp) cleared uncleared with ⟨clearedNow, unclearedNow⟩
  rw [frame]
  cases rest with
  | nil =>
      change Accounted errKeyNotExist _ ⟨_, none, monitor.frames ++ [_]⟩
      refine ⟨account, ?_, ?_⟩
      · have allCleared := holds_of_split split clearedNow
        have complete : (monitor.frames ++
            [frameOf (events ++ [.performed (.put next 0)]) monitor.frames.length]).length =
              monitor.frames.length + 1 := by
          simp
        rw [← complete] at lookedNow allCleared
        exact .idle lookedNow allCleared
      · rw [List.length_append, List.length_singleton, List.range_succ, List.map_append,
          ← accounted.frames_concat, List.map_singleton]
  | cons following rest =>
      change Accounted errKeyNotExist _
        ⟨_, some (resetThenShow _ (following :: rest)), monitor.frames⟩
      exact ⟨account, .resetting (done ++ [next]) following rest (by simpa using split) lookedNow
        clearedNow unclearedNow, accounted.frames_concat _⟩

theorem Accounted.step (accounted : Accounted errKeyNotExist events monitor) {step : MonitorStep}
    {event : MonitorEvent} {next : Monitor} (succeeds : step.Succeeds)
    (stepped : monitor.step errKeyNotExist step = some (event, next)) :
    Accounted errKeyNotExist (events ++ [event]) next := by
  cases step with
  | handler now operation =>
      simp only [Monitor.step, Option.some.injEq, Prod.mk.injEq] at stepped
      rcases stepped with ⟨rfl, rfl⟩
      exact accounted.handled now operation
  | tick =>
      cases program : monitor.refresh with
      | none =>
          simp only [Monitor.step, program, Option.some.injEq, Prod.mk.injEq] at stepped
          rcases stepped with ⟨rfl, rfl⟩
          exact accounted.started program
      | some refresh => simp [Monitor.step, program] at stepped
  | refresh fault =>
      cases fault with
      | some err => exact absurd rfl (succeeds err)
      | none =>
          have phase := accounted.phase
          generalize program : monitor.refresh = refresh at phase
          cases phase with
          | idle looked cleared => simp [Monitor.step, program] at stepped
          | reading done following rest split looked unlooked uncleared =>
              rw [step_readThenReset program] at stepped
              simp only [Option.some.injEq, Prod.mk.injEq] at stepped
              rcases stepped with ⟨rfl, rfl⟩
              exact accounted.read split looked unlooked uncleared
          | resetting done following rest split looked cleared uncleared =>
              rw [step_resetThenShow program] at stepped
              simp only [Option.some.injEq, Prod.mk.injEq] at stepped
              rcases stepped with ⟨rfl, rfl⟩
              exact accounted.cleared split looked cleared uncleared

end Steps

/-! ## Runs -/

section Runs

variable {errKeyNotExist : GoString} {steps : List MonitorStep}
  {trace : List (MonitorStep × MonitorEvent)} {final : Monitor}

/-- The accounts are right after every run without failures. -/
theorem accounted_run (succeeds : ∀ step ∈ steps, step.Succeeds)
    (ran : (Monitor.step errKeyNotExist).run .loaded steps = some (trace, final)) :
    Accounted errKeyNotExist (trace.map Prod.snd) final := by
  have start : Accounted errKeyNotExist [] .loaded :=
    ⟨fun i => .loaded i, .idle (fun _ => rfl) (fun _ => rfl), rfl⟩
  have kept : (∀ step ∈ trace.map Prod.fst, step.Succeeds) →
      Accounted errKeyNotExist (trace.map Prod.snd) final := by
    apply Machine.run_invariant (motive := fun trace monitor =>
      (∀ step ∈ trace.map Prod.fst, step.Succeeds) →
        Accounted errKeyNotExist (trace.map Prod.snd) monitor) _ _ ran
    · intro _
      exact start
    · intro trace monitor step event next holds stepped allSucceed
      rw [List.map_append] at allSucceed ⊢
      have before := holds fun step present => allSucceed step (List.mem_append_left _ present)
      exact before.step (allSucceed step (by simp)) stepped
  apply kept
  rw [Machine.map_fst_trace ran]
  exact succeeds

theorem shownIn_frameOf (events : List MonitorEvent) (refresh : ℕ) (i : Fin histBuckets) :
    shownIn (frameOf events refresh) i =
      UInt64.ofNat (History.count (InFrame i refresh) events) := by
  simp [shownIn, frameOf, readBucket]

theorem shownTotal_frameOf (events : List MonitorEvent) (refreshes : ℕ) (i : Fin histBuckets) :
    shownTotal ((List.range refreshes).map (frameOf events)) i =
      ∑ refresh ∈ Finset.range refreshes,
        History.count (InFrame i refresh) events % 2 ^ 64 := by
  induction refreshes with
  | zero => rfl
  | succ refreshes ih =>
      rw [List.range_succ, List.map_append, List.map_singleton, shownTotal_concat, ih,
        Finset.sum_range_succ, shownIn_frameOf, UInt64.toNat_ofNat']

theorem Accounted.idle_total {events : List MonitorEvent} {monitor : Monitor}
    (accounted : Accounted errKeyNotExist events monitor) (idle : monitor.refresh = none)
    (i : Fin histBuckets) :
    shownTotal monitor.frames i + (monitor.kernel.ioLatencyHist i).toNat =
      ∑ refresh ∈ Finset.range (monitor.frames.length + 1),
        History.count (InFrame i refresh) events % 2 ^ 64 ∧
    History.count (Increments i) events =
      ∑ refresh ∈ Finset.range (monitor.frames.length + 1),
        History.count (InFrame i refresh) events +
          History.count (BetweenReadAndReset i) events := by
  have phase := accounted.phase
  rw [idle] at phase
  cases phase with
  | idle looked cleared =>
      have counter := (accounted.account i).counter (by rw [looked, cleared])
      have total := (accounted.account i).total
      rw [cleared] at counter total
      refine ⟨?_, total⟩
      rw [Finset.sum_range_succ, ← shownTotal_frameOf, ← accounted.frames, counter,
        UInt64.toNat_ofNat']

/-- Every frame shows exactly the increments since the bucket was cleared by the previous refresh,
no increment is in two frames, and the increments that are in none come between a lookup and the
put that follows it. -/
theorem frames_account_for_increments (errKeyNotExist : GoString) (steps : List MonitorStep)
    (trace : List (MonitorStep × MonitorEvent)) (final : Monitor)
    (succeeds : ∀ step ∈ steps, step.Succeeds)
    (ran : (Monitor.step errKeyNotExist).run .loaded steps = some (trace, final))
    (i : Fin histBuckets) :
    (∀ refresh frame, final.frames[refresh]? = some frame →
      shownIn frame i =
        UInt64.ofNat (History.count (InFrame i refresh) (trace.map Prod.snd))) ∧
    (∀ refresh other, refresh ≠ other →
      Disjoint (History.positions (InFrame i refresh) (trace.map Prod.snd))
        (History.positions (InFrame i other) (trace.map Prod.snd))) ∧
    (final.refresh = none →
      shownTotal final.frames i + (final.kernel.ioLatencyHist i).toNat +
          History.count (BetweenReadAndReset i) (trace.map Prod.snd) ≡
        History.count (Increments i) (trace.map Prod.snd) [MOD 2 ^ 64]) := by
  have accounted := accounted_run succeeds ran
  refine ⟨?_, ?_, ?_⟩
  · intro refresh frame present
    rw [accounted.frames] at present
    rcases List.getElem?_eq_some_iff.mp present with ⟨_, isFrame⟩
    rw [List.getElem_map, List.getElem_range] at isFrame
    rw [← isFrame, shownIn_frameOf]
  · intro refresh other different
    rw [Finset.disjoint_left]
    intro position inFrame inOther
    rcases History.mem_positions.mp inFrame with ⟨_, _, lower, upper⟩
    rcases History.mem_positions.mp inOther with ⟨_, _, otherLower, otherUpper⟩
    have ordered := (accounted.account i).puts_le_lookups _
      (List.take_prefix position (trace.map Prod.snd))
    omega
  · intro idle
    rcases accounted.idle_total idle i with ⟨shown, total⟩
    rw [shown, total]
    apply Nat.ModEq.add_right
    exact (Finset.sum_nat_mod _ _ _).symm

/-- Nothing is lost between the tracer and the refresh loop if and only if no increment comes
between a lookup and the put that follows it. -/
theorem shown_add_counter_eq_iff (errKeyNotExist : GoString) (steps : List MonitorStep)
    (trace : List (MonitorStep × MonitorEvent)) (final : Monitor)
    (succeeds : ∀ step ∈ steps, step.Succeeds)
    (ran : (Monitor.step errKeyNotExist).run .loaded steps = some (trace, final))
    (idle : final.refresh = none) (i : Fin histBuckets)
    (few : History.count (Increments i) (trace.map Prod.snd) < 2 ^ 64) :
    shownTotal final.frames i + (final.kernel.ioLatencyHist i).toNat =
        History.count (Increments i) (trace.map Prod.snd) ↔
      History.Along (fun before event => ¬BetweenReadAndReset i before event)
        (trace.map Prod.snd) := by
  rcases (accounted_run succeeds ran).idle_total idle i with ⟨shown, total⟩
  have exact : ∑ refresh ∈ Finset.range (final.frames.length + 1),
      History.count (InFrame i refresh) (trace.map Prod.snd) % 2 ^ 64 =
        ∑ refresh ∈ Finset.range (final.frames.length + 1),
          History.count (InFrame i refresh) (trace.map Prod.snd) := by
    refine Finset.sum_congr rfl fun refresh present => Nat.mod_eq_of_lt ?_
    have single := Finset.single_le_sum
      (f := fun refresh => History.count (InFrame i refresh) (trace.map Prod.snd))
      (fun _ _ => Nat.zero_le _) present
    omega
  rw [← History.count_eq_zero_iff, shown, exact, total]
  omega

end Runs

/-! ## Sessions are runs -/

section Sessions

variable (errKeyNotExist : GoString)

theorem run_resume (fault : HistOp → Option GoString)
    (program : HistProgram (List LatencyBucket)) (monitor : Monitor) (kernel : KernelState) :
    ∃ steps trace, (Monitor.step errKeyNotExist).run (monitor.resume kernel program) steps =
      some (trace, ⟨(program.exec (HistOp.interpret fault) kernel).2, none,
        monitor.frames ++ [(program.exec (HistOp.interpret fault) kernel).1]⟩) := by
  induction program generalizing monitor kernel with
  | done latencyBuckets => exact ⟨[], [], rfl⟩
  | call operation next ih =>
      have sameFault : operation.interpret (fun _ => fault operation) kernel =
          operation.interpret fault kernel := by
        cases operation <;> rfl
      rcases ih (operation.interpret fault kernel).1
          (monitor.resume kernel (.call operation next))
          (operation.interpret fault kernel).2 with ⟨steps, trace, ran⟩
      refine ⟨.refresh (fault operation) :: steps,
        (.refresh (fault operation), .performed operation) :: trace, ?_⟩
      refine Machine.run_cons_eq_some.mpr ⟨_, _, trace, ?_, ran, rfl⟩
      simp only [Monitor.step, Monitor.resume, sameFault]

theorem run_increments (increments : List (Fin histBuckets)) (monitor : Monitor) :
    ∃ steps trace, (Monitor.step errKeyNotExist).run monitor steps =
      some (trace, { monitor with
        kernel := increments.foldl KernelState.increment monitor.kernel }) := by
  induction increments generalizing monitor with
  | nil => exact ⟨[], [], rfl⟩
  | cons i increments ih =>
      rcases ih { monitor with kernel := monitor.kernel.increment i } with ⟨steps, trace, ran⟩
      exact ⟨.handler 0 (.fetchAndAdd i) :: steps, _,
        Machine.run_cons_eq_some.mpr ⟨_, _, trace, rfl, ran, rfl⟩⟩

/-- A session is a run of the monitor in which no increment comes during a refresh. -/
theorem run_session (rounds : List Round) :
    ∃ steps trace, (Monitor.step errKeyNotExist).run .loaded steps =
      some (trace, ⟨(session errKeyNotExist rounds).kernel, none,
        (session errKeyNotExist rounds).frames⟩) := by
  induction rounds using List.reverseRecOn with
  | nil => exact ⟨[], [], rfl⟩
  | append_singleton rounds round ih =>
      rcases ih with ⟨steps, trace, ran⟩
      rcases run_increments errKeyNotExist round.increments
          ⟨(session errKeyNotExist rounds).kernel, none, (session errKeyNotExist rounds).frames⟩
        with ⟨incrementSteps, incrementTrace, ranIncrements⟩
      rcases run_resume errKeyNotExist round.fault (refreshLatency errKeyNotExist)
          ⟨.loaded, none, (session errKeyNotExist rounds).frames⟩
          (round.refreshed (session errKeyNotExist rounds).kernel)
        with ⟨refreshSteps, refreshTrace, ranRefresh⟩
      refine ⟨steps ++ (incrementSteps ++ .tick :: refreshSteps),
        trace ++ (incrementTrace ++ (.tick, .started) :: refreshTrace),
        Machine.run_append_eq_some.mpr ⟨_, trace, _, ran, ?_, rfl⟩⟩
      refine Machine.run_append_eq_some.mpr ⟨_, incrementTrace, _, ranIncrements, ?_, rfl⟩
      rw [session_concat]
      exact Machine.run_cons_eq_some.mpr ⟨.started, _, refreshTrace, rfl, ranRefresh, rfl⟩

end Sessions

/-! ## Handlers are steps -/

/-- Whatever handlers do side by side, the monitor does as well. -/
theorem run_handlers (errKeyNotExist : GoString) {Thread : Type*} [DecidableEq Thread]
    {schedule : List (Thread × UInt64)} {pool final : HandlerPool Thread}
    {trace : List (HandlerCall Thread)} (monitor : Monitor)
    (sameKernel : monitor.kernel = pool.shared)
    (ran : (Pool.step KernelState.interpret).run pool schedule = some (trace, final)) :
    ∃ events, (Monitor.step errKeyNotExist).run monitor
        (trace.map fun call => .handler call.1.2 call.2.operation) =
      some (events, { monitor with kernel := final.shared }) := by
  induction schedule generalizing pool trace monitor with
  | nil =>
      rcases Machine.run_nil_eq_some.mp ran with ⟨rfl, rfl⟩
      exact ⟨[], by simp [← sameKernel]⟩
  | cons label schedule ih =>
      rcases Machine.run_cons_eq_some.mp ran with ⟨performed, middle, rest, stepped, ranRest, rfl⟩
      rcases Pool.step_eq_some.mp stepped with ⟨operation, next, _, rfl, rfl⟩
      rcases ih { monitor with
          kernel := (KernelState.interpret label.2 operation monitor.kernel).2 }
          (by rw [sameKernel]) ranRest with ⟨events, ranMonitor⟩
      exact ⟨_, Machine.run_cons_eq_some.mpr ⟨.handled operation, _, events, rfl, ranMonitor, rfl⟩⟩

/-! ## A lost increment -/

def lateIncrement : List MonitorStep :=
  [.tick, .refresh none, .handler 0 (.fetchAndAdd 0)] ++ List.replicate 47 (.refresh none)

theorem lateIncrement_succeeds : ∀ step ∈ lateIncrement, step.Succeeds := by
  simp [lateIncrement, MonitorStep.Succeeds]

theorem run_lateIncrement :
    ∃ trace final, (Monitor.step (text "key does not exist")).run .loaded lateIncrement =
        some (trace, final) ∧
      final.refresh = none ∧ History.count (Increments 0) (trace.map Prod.snd) = 1 ∧
      shownTotal final.frames 0 + (final.kernel.ioLatencyHist 0).toNat = 0 := by
  have evaluated : ((Monitor.step (text "key does not exist")).run .loaded lateIncrement).map
      (fun result => (result.2.refresh.isNone,
        History.count (Increments 0) (result.1.map Prod.snd),
        shownTotal result.2.frames 0 + (result.2.kernel.ioLatencyHist 0).toNat)) =
      some (true, 1, 0) := by
    decide +kernel
  rcases Option.map_eq_some_iff.mp evaluated with ⟨⟨trace, final⟩, ran, facts⟩
  simp only [Prod.mk.injEq, Option.isNone_iff_eq_none] at facts
  exact ⟨trace, final, ran, facts⟩

theorem frames_account_for_increments_of_late :
    ∃ trace final, (Monitor.step (text "key does not exist")).run .loaded lateIncrement =
        some (trace, final) ∧
      0 + History.count (BetweenReadAndReset 0) (trace.map Prod.snd) ≡ 1 [MOD 2 ^ 64] := by
  rcases run_lateIncrement with ⟨trace, final, ran, idle, one, zero⟩
  refine ⟨trace, final, ran, ?_⟩
  rw [← one, ← zero]
  exact (frames_account_for_increments _ _ trace final lateIncrement_succeeds ran 0).2.2 idle

theorem shown_add_counter_eq_iff_of_late :
    ∃ trace final, (Monitor.step (text "key does not exist")).run .loaded lateIncrement =
        some (trace, final) ∧
      (0 = 1 ↔ History.Along (fun before event => ¬BetweenReadAndReset 0 before event)
        (trace.map Prod.snd)) := by
  rcases run_lateIncrement with ⟨trace, final, ran, idle, one, zero⟩
  refine ⟨trace, final, ran, ?_⟩
  have few : History.count (Increments 0) (trace.map Prod.snd) < 2 ^ 64 := by
    rw [one]
    decide
  rw [← zero, ← one]
  exact shown_add_counter_eq_iff _ _ trace final lateIncrement_succeeds ran idle 0 few

/-- The increment after the lookup is neither shown nor counted any more. -/
theorem late_increment_is_lost :
    ¬∀ errKeyNotExist steps trace final, (∀ step ∈ steps, MonitorStep.Succeeds step) →
      (Monitor.step errKeyNotExist).run .loaded steps = some (trace, final) →
      final.refresh = none → ∀ i, History.count (Increments i) (trace.map Prod.snd) < 2 ^ 64 →
      shownTotal final.frames i + (final.kernel.ioLatencyHist i).toNat =
        History.count (Increments i) (trace.map Prod.snd) := by
  intro nothingLost
  rcases run_lateIncrement with ⟨trace, final, ran, idle, one, zero⟩
  have balanced := nothingLost _ _ trace final lateIncrement_succeeds ran idle 0
    (by rw [one]; decide)
  rw [one, zero] at balanced
  exact absurd balanced (by decide)

end Sysmon.Ebpf
