import Sysmon.Ebpf.Monitor

/-!
# What a frame shows when map operations fail

`Sysmon.Ebpf.Monitor` accounts for every increment as long as no map operation
of a refresh fails. This file follows the refresh loop under all failures, and
beside any activity on the maps: the single helper calls of handlers, or whole
tracepoint events.

A frame is empty if one of its lookups has failed for another reason than a
missing key. Otherwise it shows, bucket by bucket, the counter at the time of
its own lookup, which is the number of increments since the bucket was last
cleared, whichever refresh has cleared it. A refresh takes at most 48 map
operations, and whatever fails, it is never stuck.
-/

namespace Sysmon.Ebpf

open Sysmon.Go

variable {Activity : Type*}

/-- A step of the activity on the maps or of the refresh loop, whose map operations may fail. -/
inductive LoopStep (Activity : Type*) where
  | activity (happening : Activity)
  | tick
  | refresh (fault : Option GoString)

/-- A step, and the map operation that the refresh performs in it. -/
abbrev LoopEntry (Activity : Type*) := LoopStep Activity × Option HistOp

namespace Monitor

/-- The refresh loop beside an activity on the maps. -/
def beside (act : Activity → KernelState → KernelState) (errKeyNotExist : GoString) :
    Machine Monitor (LoopStep Activity) (Option HistOp)
  | monitor, .activity happening =>
    some (none, { monitor with kernel := act happening monitor.kernel })
  | monitor, .tick =>
    match monitor.refresh with
    | none => some (none, { monitor with refresh := some (refreshLatency errKeyNotExist) })
    | some _ => none
  | monitor, .refresh fault =>
    match monitor.refresh with
    | some (.call operation next) =>
      let outcome := operation.interpret (fun _ => fault) monitor.kernel
      some (some operation, monitor.resume outcome.2 (next outcome.1))
    | _ => none

end Monitor

/-! ## What the trace says -/

section Trace

def IsTick (_before : List (LoopEntry Activity)) : LoopEntry Activity → Prop
  | (.tick, _) => True
  | _ => False

instance (before : List (LoopEntry Activity)) : DecidablePred (IsTick before)
  | (.tick, _) => isTrue trivial
  | (.activity _, _) => isFalse id
  | (.refresh _, _) => isFalse id

def LooksUp (i : Fin histBuckets) (_before : List (LoopEntry Activity))
    (entry : LoopEntry Activity) : Prop :=
  entry.2 = some (.lookup i)

def Performs (_before : List (LoopEntry Activity)) (entry : LoopEntry Activity) : Prop :=
  entry.2.isSome

/-- A put of zero that does not fail. -/
def ClearsBucket (i : Fin histBuckets) (_before : List (LoopEntry Activity)) :
    LoopEntry Activity → Prop
  | (.refresh none, operation) => operation = some (.put i 0)
  | _ => False

instance (i : Fin histBuckets) (before : List (LoopEntry Activity)) :
    DecidablePred (LooksUp i before) := fun _ => inferInstanceAs (Decidable (_ = _))

instance (before : List (LoopEntry Activity)) : DecidablePred (Performs before) := fun _ =>
  inferInstanceAs (Decidable (_ = _))

instance (i : Fin histBuckets) (before : List (LoopEntry Activity)) :
    DecidablePred (ClearsBucket i before)
  | (.refresh none, _) => inferInstanceAs (Decidable (_ = _))
  | (.refresh (some _), _) => isFalse id
  | (.activity _, _) => isFalse id
  | (.tick, _) => isFalse id

/-- The number of refreshes that the ticker has started. -/
def starts : List (LoopEntry Activity) → ℕ := History.count IsTick

/-- The lookups of a bucket in the current refresh. -/
def lookupsSoFar (i : Fin histBuckets) : List (LoopEntry Activity) → ℕ :=
  History.countSince (LooksUp i) IsTick

/-- The map operations of the current refresh. -/
def operationsSoFar : List (LoopEntry Activity) → ℕ := History.countSince Performs IsTick

variable (act : Activity → KernelState → KernelState) (errKeyNotExist : GoString)

def kernelStep (kernel : KernelState) : LoopEntry Activity → KernelState
  | (.activity happening, _) => act happening kernel
  | (.refresh fault, some operation) => (operation.interpret (fun _ => fault) kernel).2
  | _ => kernel

/-- The maps after the steps of a trace. -/
def kernelAfter (trace : List (LoopEntry Activity)) : KernelState :=
  trace.foldl (kernelStep act) .loaded

/-- The bucket is what a lookup of the given refresh has found: the counter at the time of the
lookup, or zero for a missing key. -/
def ReadAs (trace : List (LoopEntry Activity)) (refresh : ℕ) (i : Fin histBuckets)
    (bucket : LatencyBucket) : Prop :=
  ∃ before fault, before ++ [(.refresh fault, some (.lookup i))] <+: trace ∧
    starts before = refresh + 1 ∧ (∀ err ∈ fault, isNotFound errKeyNotExist (some err)) ∧
    bucket = readBucket i (if fault.isNone then (kernelAfter act before).ioLatencyHist i else 0)

/-- A lookup of the given refresh has failed for another reason than a missing key. -/
def Hidden (trace : List (LoopEntry Activity)) (refresh : ℕ) : Prop :=
  ∃ before i err, before ++ [(.refresh (some err), some (.lookup i))] <+: trace ∧
    starts before = refresh + 1 ∧ isNotFound errKeyNotExist (some err) = false

def ShownAs (trace : List (LoopEntry Activity)) (refresh : ℕ) (frame : List LatencyBucket) :
    Prop :=
  (frame = [] ∧ Hidden errKeyNotExist trace refresh) ∨
    List.Forall₂ (ReadAs act errKeyNotExist trace refresh) (List.finRange histBuckets) frame

variable {act errKeyNotExist} {trace : List (LoopEntry Activity)} {entry : LoopEntry Activity}
  {refresh : ℕ}

@[simp]
theorem starts_concat :
    starts (trace ++ [entry]) = starts trace + if IsTick trace entry then 1 else 0 :=
  History.count_concat trace entry

@[simp]
theorem lookupsSoFar_concat (i : Fin histBuckets) :
    lookupsSoFar i (trace ++ [entry]) =
      if IsTick trace entry then 0
      else lookupsSoFar i trace + if entry.2 = some (.lookup i) then 1 else 0 :=
  History.countSince_concat IsTick trace entry

@[simp]
theorem operationsSoFar_concat :
    operationsSoFar (trace ++ [entry]) =
      if IsTick trace entry then 0
      else operationsSoFar trace + if entry.2.isSome then 1 else 0 :=
  History.countSince_concat IsTick trace entry

@[simp]
theorem kernelAfter_concat :
    kernelAfter act (trace ++ [entry]) = kernelStep act (kernelAfter act trace) entry := by
  simp [kernelAfter]

theorem ReadAs.concat {i : Fin histBuckets} {bucket : LatencyBucket}
    (read : ReadAs act errKeyNotExist trace refresh i bucket) :
    ReadAs act errKeyNotExist (trace ++ [entry]) refresh i bucket := by
  rcases read with ⟨before, fault, isPrefix, facts⟩
  exact ⟨before, fault, isPrefix.trans (List.prefix_append _ _), facts⟩

theorem ShownAs.concat {frame : List LatencyBucket}
    (shown : ShownAs act errKeyNotExist trace refresh frame) :
    ShownAs act errKeyNotExist (trace ++ [entry]) refresh frame := by
  rcases shown with ⟨isEmpty, before, i, err, isPrefix, facts⟩ | read
  · exact Or.inl ⟨isEmpty, before, i, err, isPrefix.trans (List.prefix_append _ _), facts⟩
  · exact Or.inr (read.imp fun _ _ => ReadAs.concat)

end Trace

/-! ## Where a refresh has come to -/

section Progress

variable (act : Activity → KernelState → KernelState) (errKeyNotExist : GoString)

/-- `ReadHistogram` has read the buckets `done`, and goes on with the lookup of `next`. -/
structure Reading (trace : List (LoopEntry Activity)) (complete : ℕ)
    (done : List (Fin histBuckets)) (next : Fin histBuckets) (rest : List (Fin histBuckets))
    (buckets : List LatencyBucket) : Prop where
  split : done ++ next :: rest = List.finRange histBuckets
  started : starts trace = complete + 1
  read : List.Forall₂ (ReadAs act errKeyNotExist trace complete) done buckets
  unlooked : ∀ i ∈ next :: rest, lookupsSoFar i trace = 0
  counted : operationsSoFar trace = done.length

/-- The state of the refresh loop after `complete` refreshes, whatever has failed in them. -/
inductive Progress (trace : List (LoopEntry Activity)) (complete : ℕ) :
    Option (HistProgram (List LatencyBucket)) → Prop
  | idle (started : starts trace = complete) (bounded : operationsSoFar trace ≤ 48) :
    Progress trace complete none
  | reading {done : List (Fin histBuckets)} {next : Fin histBuckets}
    {rest : List (Fin histBuckets)} {buckets : List LatencyBucket}
    (reading : Reading act errKeyNotExist trace complete done next rest buckets) :
    Progress trace complete (some (readThenReset errKeyNotExist buckets (next :: rest)))
  | resetting (next : Fin histBuckets) (rest : List (Fin histBuckets))
    (started : starts trace = complete + 1) (frame : List LatencyBucket)
    (shown : ShownAs act errKeyNotExist trace complete frame)
    (bounded : operationsSoFar trace + (next :: rest).length ≤ 48) :
    Progress trace complete (some (resetThenShow frame (next :: rest)))

structure Watched (trace : List (LoopEntry Activity)) (monitor : Monitor) : Prop where
  kernel : monitor.kernel = kernelAfter act trace
  progress : Progress act errKeyNotExist trace monitor.frames.length monitor.refresh
  frames : ∀ refresh frame, monitor.frames[refresh]? = some frame →
    ShownAs act errKeyNotExist trace refresh frame
  lookedUpOnce : History.Throughout (fun before => ∀ i, lookupsSoFar i before ≤ 1) trace
  bounded : History.Throughout (fun before => operationsSoFar before ≤ 48) trace
  putsZero : ∀ entry ∈ trace, ∀ i value, entry.2 = some (.put i value) → value = 0

/-- What is left of a refresh after the lookup of bucket `i`. -/
def afterLookup (buckets : List LatencyBucket) (i : Fin histBuckets)
    (rest : List (Fin histBuckets)) : Except GoString UInt64 → HistProgram (List LatencyBucket)
  | .ok count => readThenReset errKeyNotExist (buckets ++ [readBucket i count]) rest
  | .error err =>
    if isNotFound errKeyNotExist (some err) then
      readThenReset errKeyNotExist (buckets ++ [readBucket i 0]) rest
    else resetThenShow [] (List.finRange histBuckets)

variable {act errKeyNotExist} {monitor : Monitor} {buckets : List LatencyBucket}
  {i : Fin histBuckets} {rest : List (Fin histBuckets)}

theorem readThenReset_cons :
    readThenReset errKeyNotExist buckets (i :: rest) =
      .call (.lookup i) (afterLookup errKeyNotExist buckets i rest) := by
  rw [readThenReset, readBuckets_cons]
  change Program.call _ _ = Program.call _ _
  congr 1
  funext found
  cases found with
  | ok count => rfl
  | error err =>
      by_cases missing : isNotFound errKeyNotExist (some err)
      · simp only [afterLookup, missing, if_true]
        rfl
      · simp only [afterLookup, missing, Bool.false_eq_true, if_false]
        rfl

theorem beside_of_reading (fault : Option GoString)
    (program : monitor.refresh = some (readThenReset errKeyNotExist buckets (i :: rest))) :
    monitor.beside act errKeyNotExist (.refresh fault) =
      some (some (.lookup i), monitor.resume monitor.kernel
        (afterLookup errKeyNotExist buckets i rest
          (HistOp.interpret (fun _ => fault) (.lookup i) monitor.kernel).1)) := by
  simp only [Monitor.beside, program, readThenReset_cons]
  cases fault <;> rfl

theorem beside_of_resetting {frame : List LatencyBucket} (fault : Option GoString)
    (program : monitor.refresh = some (resetThenShow frame (i :: rest))) :
    monitor.beside act errKeyNotExist (.refresh fault) =
      some (some (.put i 0), monitor.resume
        (kernelStep act monitor.kernel (.refresh fault, some (.put i 0)))
        (if fault.isNone then resetThenShow frame rest else .done frame)) := by
  simp only [Monitor.beside, program]
  cases fault <;> rfl

theorem Reading.length_le {trace : List (LoopEntry Activity)} {complete : ℕ}
    {done : List (Fin histBuckets)} {next : Fin histBuckets}
    (reading : Reading act errKeyNotExist trace complete done next rest buckets) :
    done.length + 1 ≤ 24 := by
  have whole := congrArg List.length reading.split
  simp only [List.length_append, List.length_cons, List.length_finRange] at whole
  exact (show done.length + 1 ≤ histBuckets by omega)

theorem Progress.operations_le {trace : List (LoopEntry Activity)} {complete : ℕ}
    {program : Option (HistProgram (List LatencyBucket))}
    (progress : Progress act errKeyNotExist trace complete program) :
    operationsSoFar trace ≤ 48 := by
  cases progress with
  | idle started bounded => exact bounded
  | reading reading =>
      have few := reading.length_le
      rw [reading.counted]
      omega
  | resetting next rest started frame shown bounded => omega

/-- What a step adds to a trace, once it is known where the refresh has come to. -/
theorem Watched.concat {trace : List (LoopEntry Activity)} {entry : LoopEntry Activity}
    {next : Monitor} (watched : Watched act errKeyNotExist trace monitor)
    (kernel : next.kernel = kernelStep act monitor.kernel entry)
    (progress : Progress act errKeyNotExist (trace ++ [entry]) next.frames.length next.refresh)
    (frames : ∀ refresh frame, next.frames[refresh]? = some frame →
      monitor.frames[refresh]? = some frame ∨
        ShownAs act errKeyNotExist (trace ++ [entry]) refresh frame)
    (once : ∀ i, lookupsSoFar i (trace ++ [entry]) ≤ 1)
    (putsZero : ∀ i value, entry.2 = some (.put i value) → value = 0) :
    Watched act errKeyNotExist (trace ++ [entry]) next where
  kernel := by rw [kernel, watched.kernel, kernelAfter_concat]
  progress := progress
  frames refresh frame present := by
    rcases frames refresh frame present with old | shown
    · exact (watched.frames refresh frame old).concat
    · exact shown
  lookedUpOnce := History.throughout_concat.mpr ⟨watched.lookedUpOnce, once⟩
  bounded := History.throughout_concat.mpr ⟨watched.bounded, progress.operations_le⟩
  putsZero other present := by
    rcases List.mem_append.mp present with old | isEntry
    · exact watched.putsZero other old
    · rw [List.mem_singleton.mp isEntry]
      exact putsZero

theorem Watched.lookups_le {trace : List (LoopEntry Activity)}
    (watched : Watched act errKeyNotExist trace monitor) (i : Fin histBuckets) :
    lookupsSoFar i trace ≤ 1 :=
  watched.lookedUpOnce.self i

end Progress

/-! ## Steps -/

section Steps

variable {act : Activity → KernelState → KernelState} {errKeyNotExist : GoString}
  {trace : List (LoopEntry Activity)} {monitor : Monitor}

theorem Watched.activity (watched : Watched act errKeyNotExist trace monitor)
    (happening : Activity) :
    Watched act errKeyNotExist (trace ++ [(.activity happening, none)])
      { monitor with kernel := act happening monitor.kernel } := by
  apply watched.concat rfl
  · have progress := watched.progress
    generalize monitor.refresh = program at progress
    cases progress with
    | idle started bounded => exact .idle (by simpa [IsTick]) (by simpa [IsTick])
    | reading reading =>
        apply Progress.reading
        exact ⟨reading.split, by simpa [IsTick] using reading.started,
          reading.read.imp fun _ _ => ReadAs.concat, by simpa [IsTick] using reading.unlooked,
          by simpa [IsTick] using reading.counted⟩
    | resetting next rest started frame shown bounded =>
        exact .resetting next rest (by simpa [IsTick]) frame shown.concat (by simpa [IsTick])
  · intro refresh frame present
    exact Or.inl present
  · intro i
    simpa [IsTick] using watched.lookups_le i
  · simp

theorem Watched.tick (watched : Watched act errKeyNotExist trace monitor)
    (idle : monitor.refresh = none) :
    Watched act errKeyNotExist (trace ++ [(.tick, none)])
      { monitor with refresh := some (refreshLatency errKeyNotExist) } := by
  apply watched.concat rfl
  · have progress := watched.progress
    rw [idle] at progress
    cases progress with
    | idle started bounded =>
        have reading : Reading act errKeyNotExist (trace ++ [(.tick, none)])
            monitor.frames.length [] 0 (List.finRange histBuckets).tail [] :=
          ⟨by decide, by simpa [IsTick] using started, .nil, by simp [IsTick], by simp [IsTick]⟩
        exact .reading reading
  · intro refresh frame present
    exact Or.inl present
  · simp [IsTick]
  · simp

theorem resume_kernel (kernel : KernelState) (program : HistProgram (List LatencyBucket)) :
    (monitor.resume kernel program).kernel = kernel := by
  cases program <;> rfl

theorem frames_resume_readThenReset (kernel : KernelState) (buckets : List LatencyBucket)
    (rest : List (Fin histBuckets)) :
    (monitor.resume kernel (readThenReset errKeyNotExist buckets rest)).frames =
      monitor.frames := by
  cases rest with
  | nil => rfl
  | cons next rest =>
      rw [readThenReset_cons]
      rfl

section Look

variable {fault : Option GoString} {done rest : List (Fin histBuckets)} {next : Fin histBuckets}
  {buckets : List LatencyBucket}

theorem Watched.lookups_concat_le (watched : Watched act errKeyNotExist trace monitor)
    (unlooked : lookupsSoFar next trace = 0) (i : Fin histBuckets) :
    lookupsSoFar i (trace ++ [(.refresh fault, some (.lookup next))]) ≤ 1 := by
  have before := watched.lookups_le i
  by_cases own : next = i
  · subst own
    simp [IsTick, unlooked]
  · simpa [IsTick, own] using before

/-- The refresh reads on: the next bucket, or the first put when all buckets are read. -/
theorem Reading.advance {complete : ℕ} {bucket : LatencyBucket} (kernel : KernelState)
    (reading : Reading act errKeyNotExist trace complete done next rest buckets)
    (readNext : ReadAs act errKeyNotExist (trace ++ [(.refresh fault, some (.lookup next))])
      complete next bucket) :
    Progress act errKeyNotExist (trace ++ [(.refresh fault, some (.lookup next))]) complete
      (monitor.resume kernel
        (readThenReset errKeyNotExist (buckets ++ [bucket]) rest)).refresh := by
  have started : starts (trace ++ [(.refresh fault, some (.lookup next))]) = complete + 1 := by
    simpa [IsTick] using reading.started
  have read : List.Forall₂ (ReadAs act errKeyNotExist
      (trace ++ [(.refresh fault, some (.lookup next))]) complete)
      (done ++ [next]) (buckets ++ [bucket]) :=
    List.rel_append (reading.read.imp fun _ _ => ReadAs.concat) (.cons readNext .nil)
  have counted : operationsSoFar (trace ++ [(.refresh fault, some (.lookup next))]) =
      (done ++ [next]).length := by
    simp [IsTick, reading.counted]
  cases rest with
  | nil =>
      rw [reading.split] at read counted
      refine .resetting 0 (List.finRange histBuckets).tail started _ (Or.inr read) ?_
      rw [counted]
      decide
  | cons following rest =>
      have nodup : (done ++ next :: following :: rest).Nodup :=
        reading.split ▸ List.nodup_finRange histBuckets
      refine .reading ⟨by simpa using reading.split, started, read, ?_, counted⟩
      intro i isLeft
      have different : next ≠ i := by
        rintro rfl
        exact (List.nodup_cons.mp (List.nodup_append.mp nodup).2.1).1 isLeft
      simpa [IsTick, different] using reading.unlooked i (List.mem_cons_of_mem next isLeft)

theorem Watched.read (watched : Watched act errKeyNotExist trace monitor)
    (reading : Reading act errKeyNotExist trace monitor.frames.length done next rest buckets)
    {count : UInt64} (tolerated : ∀ err ∈ fault, isNotFound errKeyNotExist (some err))
    (isCount : count = if fault.isNone then monitor.kernel.ioLatencyHist next else 0) :
    Watched act errKeyNotExist (trace ++ [(.refresh fault, some (.lookup next))])
      (monitor.resume monitor.kernel
        (readThenReset errKeyNotExist (buckets ++ [readBucket next count]) rest)) := by
  apply watched.concat
  · rw [resume_kernel]
    cases fault <;> rfl
  · rw [frames_resume_readThenReset]
    apply reading.advance
    refine ⟨trace, fault, List.prefix_refl _, reading.started, tolerated, ?_⟩
    rw [isCount, watched.kernel]
  · intro refresh frame present
    rw [frames_resume_readThenReset] at present
    exact Or.inl present
  · exact watched.lookups_concat_le (reading.unlooked next List.mem_cons_self)
  · simp

theorem Watched.hide (watched : Watched act errKeyNotExist trace monitor)
    (reading : Reading act errKeyNotExist trace monitor.frames.length done next rest buckets)
    {err : GoString} (fatal : isNotFound errKeyNotExist (some err) = false) :
    Watched act errKeyNotExist (trace ++ [(.refresh (some err), some (.lookup next))])
      (monitor.resume monitor.kernel (resetThenShow [] (List.finRange histBuckets))) := by
  have hidden : Hidden errKeyNotExist (trace ++ [(.refresh (some err), some (.lookup next))])
      monitor.frames.length :=
    ⟨trace, next, err, List.prefix_refl _, reading.started, fatal⟩
  apply watched.concat
  · rfl
  · change Progress _ _ _ monitor.frames.length _
    refine .resetting 0 (List.finRange histBuckets).tail ?_ [] (Or.inl ⟨rfl, hidden⟩) ?_
    · simpa [IsTick] using reading.started
    · have few := reading.length_le
      have all : (0 :: (List.finRange histBuckets).tail).length = 24 := by decide
      simp only [operationsSoFar_concat, IsTick, if_false, reading.counted, all,
        Option.isSome_some, if_true]
      omega
  · intro refresh frame present
    exact Or.inl present
  · exact watched.lookups_concat_le (reading.unlooked next List.mem_cons_self)
  · simp

end Look

theorem Watched.put (watched : Watched act errKeyNotExist trace monitor)
    (fault : Option GoString) {next : Fin histBuckets} {rest : List (Fin histBuckets)}
    {frame : List LatencyBucket} (started : starts trace = monitor.frames.length + 1)
    (shown : ShownAs act errKeyNotExist trace monitor.frames.length frame)
    (bounded : operationsSoFar trace + (next :: rest).length ≤ 48) :
    Watched act errKeyNotExist (trace ++ [(.refresh fault, some (.put next 0))])
      (monitor.resume (kernelStep act monitor.kernel (.refresh fault, some (.put next 0)))
        (if fault.isNone then resetThenShow frame rest else .done frame)) := by
  have startedStill : starts (trace ++ [(.refresh fault, some (.put next 0))]) =
      monitor.frames.length + 1 := by
    simpa [IsTick] using started
  have operations : operationsSoFar (trace ++ [(.refresh fault, some (.put next 0))]) =
      operationsSoFar trace + 1 := by
    simp [IsTick]
  have once : ∀ i, lookupsSoFar i (trace ++ [(.refresh fault, some (.put next 0))]) ≤ 1 := by
    intro i
    simpa [IsTick] using watched.lookups_le i
  have zero : ∀ (i : Fin histBuckets) (value : UInt64),
      some (HistOp.put next 0) = some (.put i value) → value = 0 := by
    intro i value same
    simp only [Option.some.injEq, HistOp.put.injEq] at same
    exact same.2.symm
  rw [List.length_cons] at bounded
  -- The refresh is over after the last put, and after the first one that fails.
  have finished : Watched act errKeyNotExist (trace ++ [(.refresh fault, some (.put next 0))])
      (monitor.resume (kernelStep act monitor.kernel (.refresh fault, some (.put next 0)))
        (.done frame)) := by
    apply watched.concat rfl
    · refine .idle ?_ (by omega)
      rw [startedStill]
      simp [Monitor.resume]
    · intro refresh other present
      rw [Monitor.resume] at present
      rcases History.getElem?_concat_eq_some_iff.mp present with old | ⟨rfl, rfl⟩
      · exact Or.inl old
      · exact Or.inr shown.concat
    · exact once
    · exact zero
  cases fault with
  | some err => exact finished
  | none =>
      cases rest with
      | nil => exact finished
      | cons following rest =>
          apply watched.concat rfl
          · exact .resetting following rest startedStill frame shown.concat (by omega)
          · intro refresh other present
            exact Or.inl present
          · exact once
          · exact zero

theorem Watched.step (watched : Watched act errKeyNotExist trace monitor)
    {step : LoopStep Activity} {operation : Option HistOp} {next : Monitor}
    (stepped : monitor.beside act errKeyNotExist step = some (operation, next)) :
    Watched act errKeyNotExist (trace ++ [(step, operation)]) next := by
  have progress := watched.progress
  generalize program : monitor.refresh = refresh at progress
  cases step with
  | activity happening =>
      simp only [Monitor.beside, Option.some.injEq, Prod.mk.injEq] at stepped
      rcases stepped with ⟨rfl, rfl⟩
      exact watched.activity happening
  | tick =>
      cases refresh with
      | none =>
          simp only [Monitor.beside, program, Option.some.injEq, Prod.mk.injEq] at stepped
          rcases stepped with ⟨rfl, rfl⟩
          exact watched.tick program
      | some left => simp [Monitor.beside, program] at stepped
  | refresh fault =>
      cases progress with
      | idle started bounded => simp [Monitor.beside, program] at stepped
      | reading reading =>
          rw [beside_of_reading fault program] at stepped
          simp only [Option.some.injEq, Prod.mk.injEq] at stepped
          rcases stepped with ⟨rfl, rfl⟩
          cases fault with
          | none => exact watched.read reading (by simp) rfl
          | some err =>
              by_cases missing : isNotFound errKeyNotExist (some err)
              · simp only [HistOp.interpret, afterLookup, missing, if_true]
                exact watched.read reading (by simpa using missing) rfl
              · simp only [HistOp.interpret, afterLookup, missing, Bool.false_eq_true, if_false]
                exact watched.hide reading (by simpa using missing)
      | resetting following rest started frame shown bounded =>
          rw [beside_of_resetting fault program] at stepped
          simp only [Option.some.injEq, Prod.mk.injEq] at stepped
          rcases stepped with ⟨rfl, rfl⟩
          exact watched.put fault started shown bounded

/-- The invariant holds after every run, whatever fails in it. -/
theorem watched_run {steps : List (LoopStep Activity)} {final : Monitor}
    (ran : (Monitor.beside act errKeyNotExist).run .loaded steps = some (trace, final)) :
    Watched act errKeyNotExist trace final := by
  apply Machine.run_invariant (motive := Watched act errKeyNotExist) _ _ ran
  · refine ⟨rfl, .idle rfl (Nat.zero_le _), by simp [Monitor.loaded], ?_, ?_, by simp⟩
    · intro before isPrefix
      rw [List.prefix_nil.mp isPrefix]
      exact fun _ => Nat.zero_le _
    · intro before isPrefix
      rw [List.prefix_nil.mp isPrefix]
      exact Nat.zero_le _
  · intro trace monitor step operation next watched stepped
    exact watched.step stepped

theorem Progress.starts_eq {complete : ℕ} {program : Option (HistProgram (List LatencyBucket))}
    (progress : Progress act errKeyNotExist trace complete program) :
    starts trace = complete + if program.isSome then 1 else 0 := by
  cases progress with
  | idle started bounded => exact started
  | reading reading => exact reading.started
  | resetting next rest started frame shown bounded => exact started

theorem Progress.operations_lt {complete : ℕ} {program : HistProgram (List LatencyBucket)}
    (progress : Progress act errKeyNotExist trace complete (some program)) :
    operationsSoFar trace < 48 := by
  cases progress with
  | reading reading =>
      have few := reading.length_le
      rw [reading.counted]
      omega
  | resetting next rest started frame shown bounded =>
      rw [List.length_cons] at bounded
      omega

theorem Watched.not_stuck (watched : Watched act errKeyNotExist trace monitor)
    (busy : monitor.refresh.isSome) (fault : Option GoString) :
    ∃ operation next, monitor.beside act errKeyNotExist (.refresh fault) =
      some (some operation, next) := by
  have progress := watched.progress
  generalize program : monitor.refresh = refresh at progress
  cases progress with
  | idle started bounded => simp [program] at busy
  | reading reading => exact ⟨_, _, beside_of_reading fault program⟩
  | resetting next rest started frame shown bounded =>
      exact ⟨_, _, beside_of_resetting fault program⟩

/-- **Refreshes end.** Beside any activity on the maps, and whatever fails, every tick leads to
one frame: a refresh is never stuck, takes at most 48 map operations, and looks no bucket up
twice. -/
theorem every_tick_leads_to_one_frame (act : Activity → KernelState → KernelState)
    (errKeyNotExist : GoString) (steps : List (LoopStep Activity))
    (trace : List (LoopEntry Activity)) (final : Monitor)
    (ran : (Monitor.beside act errKeyNotExist).run .loaded steps = some (trace, final)) :
    starts trace = final.frames.length + (if final.refresh.isSome then 1 else 0) ∧
      History.Throughout (fun before => operationsSoFar before ≤ 48) trace ∧
      History.Throughout (fun before => ∀ i, lookupsSoFar i before ≤ 1) trace ∧
      (final.refresh.isSome → operationsSoFar trace < 48 ∧
        ∀ fault, ∃ operation next, final.beside act errKeyNotExist (.refresh fault) =
          some (some operation, next)) := by
  have watched := watched_run ran
  refine ⟨watched.progress.starts_eq, watched.bounded, watched.lookedUpOnce, ?_⟩
  intro busy
  constructor
  · rcases Option.isSome_iff_exists.mp busy with ⟨program, isProgram⟩
    have progress := watched.progress
    rw [isProgram] at progress
    exact progress.operations_lt
  · exact watched.not_stuck busy

/-- A sample in bucket 3, and a refresh whose second put fails. -/
def failingPut : List (LoopStep BlockEvent) :=
  [.activity (.issue ⟨1, 7⟩ 1000), .activity (.complete ⟨1, 7⟩ 8000), .tick] ++
    List.replicate 25 (.refresh none) ++ [.refresh (some (text "EPERM"))]

def handleEvent (event : BlockEvent) (kernel : KernelState) : KernelState := kernel.handle event

theorem every_tick_leads_to_one_frame_of_failingPut :
    ∃ trace final, (Monitor.beside handleEvent (text "key does not exist")).run .loaded
        failingPut = some (trace, final) ∧ starts trace = final.frames.length := by
  have evaluated : ((Monitor.beside handleEvent (text "key does not exist")).run .loaded
      failingPut).map (fun result => result.2.refresh.isNone) = some true := by
    decide +kernel
  rcases Option.map_eq_some_iff.mp evaluated with ⟨⟨trace, final⟩, ran, idle⟩
  refine ⟨trace, final, ran, ?_⟩
  rw [(every_tick_leads_to_one_frame _ _ _ trace final ran).1, Option.isNone_iff_eq_none.mp idle]
  rfl

end Steps

/-! ## What the counters count -/

section Counters

def activities (trace : List (LoopEntry Activity)) : List Activity :=
  trace.filterMap fun entry => match entry.1 with
    | .activity happening => some happening
    | _ => none

/-- The step is an activity that `adds` selects, given the activities before it. -/
def IsActivity (adds : List Activity → Activity → Prop) (before : List (LoopEntry Activity)) :
    LoopEntry Activity → Prop
  | (.activity happening, _) => adds (activities before) happening
  | _ => False

instance (adds : List Activity → Activity → Prop) [∀ before, DecidablePred (adds before)]
    (before : List (LoopEntry Activity)) : DecidablePred (IsActivity adds before)
  | (.activity _, _) => inferInstanceAs (Decidable (adds _ _))
  | (.tick, _) => isFalse id
  | (.refresh _, _) => isFalse id

@[simp]
theorem activities_concat (trace : List (LoopEntry Activity)) (entry : LoopEntry Activity) :
    activities (trace ++ [entry]) = activities trace ++ match entry.1 with
      | .activity happening => [happening]
      | _ => [] := by
  rcases entry with ⟨happening | _ | fault, operation⟩ <;> simp [activities]

variable {act : Activity → KernelState → KernelState} {adds : List Activity → Activity → Prop}
  [∀ before, DecidablePred (adds before)] {trace : List (LoopEntry Activity)}
  {i : Fin histBuckets}

/-- If the activities that `adds` selects increment a counter, then the counter is the number of
these activities since the bucket was last cleared. -/
theorem ioLatencyHist_kernelAfter
    (putsZero : ∀ entry ∈ trace, ∀ i value, entry.2 = some (.put i value) → value = 0)
    (increments : ∀ before happening operation,
      before ++ [(.activity happening, operation)] <+: trace →
      (act happening (kernelAfter act before)).ioLatencyHist i =
        (kernelAfter act before).ioLatencyHist i +
          if adds (activities before) happening then 1 else 0) :
    (kernelAfter act trace).ioLatencyHist i =
      UInt64.ofNat (History.countSince (IsActivity adds) (ClearsBucket i) trace) := by
  induction trace using List.reverseRecOn with
  | nil => rfl
  | append_singleton trace entry ih =>
      have counted := ih (fun other present => putsZero other (List.mem_append_left _ present))
        fun before happening operation isPrefix =>
          increments before happening operation (isPrefix.trans (List.prefix_append _ _))
      have entryZero := putsZero entry (by simp)
      rw [kernelAfter_concat, History.countSince_concat]
      rcases entry with ⟨happening | _ | fault, operation⟩
      · rw [if_neg (show ¬ClearsBucket i trace (.activity happening, operation) from id),
          kernelStep, increments trace happening operation (List.prefix_refl _), counted,
          UInt64.ofNat_add]
        by_cases added : adds (activities trace) happening <;> simp [IsActivity, added]
      · simpa [kernelStep, IsActivity, ClearsBucket] using counted
      · cases operation with
        | none => cases fault <;> simpa [kernelStep, IsActivity, ClearsBucket] using counted
        | some operation =>
            cases fault with
            | some err =>
                cases operation <;>
                  simpa [kernelStep, HistOp.interpret, IsActivity, ClearsBucket] using counted
            | none =>
                cases operation with
                | lookup j =>
                    simpa [kernelStep, HistOp.interpret, IsActivity, ClearsBucket] using counted
                | put j value =>
                    have zero : value = 0 := entryZero j value rfl
                    subst zero
                    by_cases own : i = j
                    · subst own
                      simp [kernelStep, HistOp.interpret, ClearsBucket]
                    · simpa [kernelStep, HistOp.interpret, IsActivity, ClearsBucket, own,
                        Ne.symm own] using counted

end Counters

section Frames

variable {act : Activity → KernelState → KernelState} {trace : List (LoopEntry Activity)}
  (adds : Fin histBuckets → List Activity → Activity → Prop)
  [∀ i before, DecidablePred (adds i before)] (errKeyNotExist : GoString)

/-- The frame is hidden by a failed lookup, or it shows for every bucket how many activities that
`adds` selects come after the last clearing of the bucket and before its lookup in the given
refresh. A bucket with a missing key is shown as empty. -/
def ShowsSinceCleared (trace : List (LoopEntry Activity)) (refresh : ℕ)
    (frame : List LatencyBucket) : Prop :=
  (frame = [] ∧ Hidden errKeyNotExist trace refresh) ∨
    (frame.length = histBuckets ∧ ∀ i : Fin histBuckets, ∃ before fault,
      before ++ [(.refresh fault, some (.lookup i))] <+: trace ∧ starts before = refresh + 1 ∧
      (∀ err ∈ fault, isNotFound errKeyNotExist (some err)) ∧
      frame[i.val]? = some (readBucket i (if fault.isNone then UInt64.ofNat
        (History.countSince (IsActivity (adds i)) (ClearsBucket i) before) else 0)))

variable {adds errKeyNotExist}

theorem Watched.showsSinceCleared {monitor : Monitor}
    (watched : Watched act errKeyNotExist trace monitor)
    (increments : ∀ i before happening operation,
      before ++ [(.activity happening, operation)] <+: trace →
      (act happening (kernelAfter act before)).ioLatencyHist i =
        (kernelAfter act before).ioLatencyHist i +
          if adds i (activities before) happening then 1 else 0)
    {refresh : ℕ} {frame : List LatencyBucket}
    (present : monitor.frames[refresh]? = some frame) :
    ShowsSinceCleared adds errKeyNotExist trace refresh frame := by
  rcases watched.frames refresh frame present with hidden | read
  · exact Or.inl hidden
  · refine Or.inr ⟨read.length_eq.symm.trans (List.length_finRange), fun i => ?_⟩
    rcases List.forall₂_iff_get.mp read with ⟨sameLength, each⟩
    have inside : i.val < frame.length := by
      rw [← sameLength, List.length_finRange]
      exact i.isLt
    have readOne := each i.val (by simp) inside
    simp only [List.get_eq_getElem, List.getElem_finRange, Fin.cast_mk, Fin.eta] at readOne
    rcases readOne with ⟨before, fault, isPrefix, started, tolerated, isBucket⟩
    have within : before <+: trace := (List.prefix_append _ _).trans isPrefix
    have counter : (kernelAfter act before).ioLatencyHist i = UInt64.ofNat
        (History.countSince (IsActivity (adds i)) (ClearsBucket i) before) := by
      apply ioLatencyHist_kernelAfter
      · intro entry isEntry
        exact watched.putsZero entry (within.subset isEntry)
      · intro earlier happening operation isEarlier
        exact increments i earlier happening operation (isEarlier.trans within)
    refine ⟨before, fault, isPrefix, started, tolerated, ?_⟩
    rw [List.getElem?_eq_getElem inside, isBucket, counter]

end Frames

/-! ## Helper calls -/

section HelperCalls

/-- A handler performs a helper call while the clock shows a time. -/
def helperCall (call : UInt64 × BpfOp) (kernel : KernelState) : KernelState :=
  (kernel.interpret call.1 call.2).2

def IncrementsBucket (i : Fin histBuckets) (_before : List (UInt64 × BpfOp))
    (call : UInt64 × BpfOp) : Prop :=
  call.2 = .fetchAndAdd i

instance (i : Fin histBuckets) (before : List (UInt64 × BpfOp)) :
    DecidablePred (IncrementsBucket i before) := fun _ => inferInstanceAs (Decidable (_ = _))

def MonitorStep.loopStep : MonitorStep → LoopStep (UInt64 × BpfOp)
  | handler now operation => .activity (now, operation)
  | tick => .tick
  | refresh fault => .refresh fault

def MonitorEvent.histOp : MonitorEvent → Option HistOp
  | handled _ | started => none
  | performed operation => some operation

variable {errKeyNotExist : GoString}

/-- The monitor is the refresh loop beside the helper calls of handlers. -/
theorem step_eq_beside (monitor : Monitor) (step : MonitorStep) :
    monitor.beside helperCall errKeyNotExist step.loopStep =
      (monitor.step errKeyNotExist step).map fun (event, next) => (event.histOp, next) := by
  cases step with
  | handler now operation => rfl
  | tick =>
      simp only [MonitorStep.loopStep, Monitor.beside, Monitor.step]
      cases monitor.refresh <;> rfl
  | refresh fault =>
      simp only [MonitorStep.loopStep, Monitor.beside, Monitor.step]
      rcases monitor.refresh with _ | ⟨latencyBuckets⟩ | ⟨operation, next⟩ <;> rfl

theorem run_beside {steps : List MonitorStep} {trace : List (MonitorStep × MonitorEvent)}
    {start final : Monitor}
    (ran : (Monitor.step errKeyNotExist).run start steps = some (trace, final)) :
    (Monitor.beside helperCall errKeyNotExist).run start (steps.map MonitorStep.loopStep) =
      some (trace.map (Prod.map MonitorStep.loopStep MonitorEvent.histOp), final) := by
  apply Machine.run_map MonitorStep.loopStep MonitorEvent.histOp _ ran
  intro monitor step event next stepped
  rw [step_eq_beside, stepped, Option.map_some]

/-- **Frames under failures.** Whatever handlers do side by side and whichever map operations
fail, every frame shows the increments of each bucket since it was last cleared, up to its own
lookup; or it is empty because a lookup of its refresh has failed. -/
theorem frames_show_increments_since_cleared (errKeyNotExist : GoString)
    (steps : List MonitorStep) (trace : List (MonitorStep × MonitorEvent)) (final : Monitor)
    (ran : (Monitor.step errKeyNotExist).run .loaded steps = some (trace, final))
    (refresh : ℕ) (frame : List LatencyBucket)
    (present : final.frames[refresh]? = some frame) :
    ShowsSinceCleared IncrementsBucket errKeyNotExist
      (trace.map (Prod.map MonitorStep.loopStep MonitorEvent.histOp)) refresh frame := by
  apply (watched_run (run_beside ran)).showsSinceCleared _ present
  intro i before call operation _
  exact KernelState.ioLatencyHist_interpret call.1 call.2 _ i

theorem frames_show_increments_since_cleared_of_one :
    ∃ trace final frame, (Monitor.step (text "key does not exist")).run .loaded
        ([.handler 0 (.fetchAndAdd 3), .tick] ++ List.replicate 48 (.refresh none)) =
        some (trace, final) ∧ shownIn frame 3 = 1 ∧
      ShowsSinceCleared IncrementsBucket (text "key does not exist")
        (trace.map (Prod.map MonitorStep.loopStep MonitorEvent.histOp)) 0 frame := by
  have evaluated : ((Monitor.step (text "key does not exist")).run .loaded
      ([.handler 0 (.fetchAndAdd 3), .tick] ++ List.replicate 48 (.refresh none))).map
        (fun result => result.2.frames[0]?.map fun frame => shownIn frame 3) =
      some (some 1) := by
    decide +kernel
  rcases Option.map_eq_some_iff.mp evaluated with ⟨⟨trace, final⟩, ran, shown⟩
  rcases Option.map_eq_some_iff.mp shown with ⟨frame, present, one⟩
  exact ⟨trace, final, frame, ran, one,
    frames_show_increments_since_cleared _ _ trace final ran 0 frame present⟩

end HelperCalls

/-! ## Tracepoint events -/

section Events

theorem startTimes_handle_congr {kernel other : KernelState}
    (same : kernel.startTimes = other.startTimes) (event : BlockEvent) :
    (kernel.handle event).startTimes = (other.handle event).startTimes := by
  cases event with
  | issue ctx now => simp [KernelState.handle_issue, same]
  | complete ctx now =>
      cases found : other.startTimes.lookup (packKey ctx.dev ctx.sector) with
      | none =>
          rw [KernelState.handle_complete_of_none now found,
            KernelState.handle_complete_of_none now (by rw [same, found]), same]
      | some start =>
          rw [KernelState.handle_complete_of_some now found,
            KernelState.handle_complete_of_some now (by rw [same, found])]
          simp [same]

/-- Refreshes leave `start_times` alone. -/
theorem startTimes_kernelAfter (trace : List (LoopEntry BlockEvent)) :
    (kernelAfter handleEvent trace).startTimes = (tracer (activities trace)).startTimes := by
  induction trace using List.reverseRecOn with
  | nil => rfl
  | append_singleton trace entry ih =>
      rw [kernelAfter_concat, activities_concat]
      rcases entry with ⟨event | _ | fault, operation⟩
      · simp only [kernelStep, handleEvent, tracer_concat]
        exact startTimes_handle_congr ih event
      · simpa [kernelStep] using ih
      · rcases operation with _ | ⟨i⟩ | ⟨i, value⟩ <;> cases fault <;>
          simpa [kernelStep, HistOp.interpret] using ih

theorem ioLatencyHist_handle {kernel : KernelState} {events : List BlockEvent}
    {event : BlockEvent} (ordered : ClockOrdered (events ++ [event]))
    (held : ∀ key, kernel.startTimes.lookup key = pendingSince events key)
    (i : Fin histBuckets) :
    (kernel.handle event).ioLatencyHist i =
      kernel.ioLatencyHist i + if IsSample i events event then 1 else 0 := by
  cases event with
  | issue ctx now => simp [KernelState.handle_issue, IsSample]
  | complete ctx now =>
      have found := held (packKey ctx.dev ctx.sector)
      cases since : pendingSince events (packKey ctx.dev ctx.sector) with
      | none =>
          rw [since] at found
          simp [KernelState.handle_complete_of_none now found, IsSample, since]
      | some start =>
          rw [since] at found
          have inPast : start ≤ now := pendingSince_le_clock ordered since
          rw [KernelState.handle_complete_of_some now found,
            KernelState.increment_ioLatencyHist]
          simp [IsSample, since, latencyBucket_sub_eq_iff inPast]

theorem activities_prefix {before trace : List (LoopEntry Activity)}
    (isPrefix : before <+: trace) : activities before <+: activities trace :=
  isPrefix.filterMap _

/-- **From the tracepoints to the screen.** Beside any sequence of block events that is ordered in
time and keeps within the size of `start_times`, and whichever map operations fail, every frame
shows for each bucket the number of completions with a latency in the bucket's range since the
bucket was last cleared, up to its own lookup; or it is empty because a lookup has failed. -/
theorem frames_show_samples_since_cleared (errKeyNotExist : GoString)
    (steps : List (LoopStep BlockEvent)) (trace : List (LoopEntry BlockEvent)) (final : Monitor)
    (ran : (Monitor.beside handleEvent errKeyNotExist).run .loaded steps = some (trace, final))
    (ordered : ClockOrdered (activities trace)) (fits : Fits (activities trace))
    (refresh : ℕ) (frame : List LatencyBucket)
    (present : final.frames[refresh]? = some frame) :
    ShowsSinceCleared IsSample errKeyNotExist trace refresh frame := by
  apply (watched_run ran).showsSinceCleared _ present
  intro i before event operation isPrefix
  have within := activities_prefix isPrefix
  rw [activities_concat] at within
  apply ioLatencyHist_handle
  · exact List.Pairwise.sublist (within.map BlockEvent.clock).sublist ordered
  · intro key
    rw [startTimes_kernelAfter]
    exact lookup_tracer (fits.of_prefix ((List.prefix_append _ _).trans within)) key

theorem frames_show_samples_since_cleared_of_failingPut :
    ∃ trace final frame, (Monitor.beside handleEvent (text "key does not exist")).run .loaded
        failingPut = some (trace, final) ∧ shownIn frame 3 = 1 ∧
      ShowsSinceCleared IsSample (text "key does not exist") trace 0 frame := by
  have evaluated : ((Monitor.beside handleEvent (text "key does not exist")).run .loaded
      failingPut).map (fun result => (decide (ClockOrdered (activities result.1)),
        decide (Fits (activities result.1)),
        result.2.frames[0]?.map fun frame => shownIn frame 3)) = some (true, true, some 1) := by
    decide +kernel
  rcases Option.map_eq_some_iff.mp evaluated with ⟨⟨trace, final⟩, ran, facts⟩
  simp only [Prod.mk.injEq, decide_eq_true_eq] at facts
  rcases facts with ⟨ordered, fits, shown⟩
  rcases Option.map_eq_some_iff.mp shown with ⟨frame, present, one⟩
  exact ⟨trace, final, frame, ran, one,
    frames_show_samples_since_cleared _ _ trace final ran ordered fits 0 frame present⟩

end Events

end Sysmon.Ebpf
