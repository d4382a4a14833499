import Mathlib.Combinatorics.Enumerative.DoubleCounting
import Sysmon.Ebpf.Handlers
import Sysmon.Library.History

/-!
# Overlapping handlers on one key

`trace_rq_complete` looks its key up and deletes the entry in two separate
steps, and it does not check whether the delete found anything. Two
completions that overlap may therefore find the same start time, and both of
them count it. This file shows that nothing else can go wrong: in every
schedule in which no lookup finds an entry that an earlier lookup has already
found, each update of `start_times` is used for at most one increment, and the
histogram never holds more than was recorded.

The accounts are kept per thread. `Stage` lists the points that the code of a
handler can have come to, together with how often its thread has found a start
time and how often it has counted one.
-/

namespace Sysmon.Ebpf

open KernelState

variable {Thread : Type*} [DecidableEq Thread]

def updatedKey : Performed BpfOp.Answer → Option UInt64
  | ⟨.startTimesUpdate key _, _⟩ => some key
  | _ => none

def foundKey : Performed BpfOp.Answer → Option UInt64
  | ⟨.startTimesLookup key, some _⟩ => some key
  | _ => none

def addedBucket : Performed BpfOp.Answer → Option (Fin histBuckets)
  | ⟨.fetchAndAdd bucket, _⟩ => some bucket
  | _ => none

def finds (thread : Thread) : List (HandlerCall Thread) → ℕ :=
  History.count fun _ call => call.1.1 = thread ∧ (foundKey call.2).isSome

def adds (thread : Thread) : List (HandlerCall Thread) → ℕ :=
  History.count fun _ call => call.1.1 = thread ∧ (addedBucket call.2).isSome

theorem updatedKey_or_mem_keys {now : UInt64} {operation : BpfOp} {kernel : KernelState}
    {key : UInt64} (present : key ∈ (interpret now operation kernel).2.startTimes.keys) :
    updatedKey ⟨operation, (interpret now operation kernel).1⟩ = some key ∨
      key ∈ kernel.startTimes.keys := by
  cases operation with
  | startTimesUpdate updated value =>
      rcases Finset.mem_insert.mp (BoundedMap.keys_update_subset _ _ _ present) with rfl | old
      · exact Or.inl rfl
      · exact Or.inr old
  | startTimesDelete deleted => exact Or.inr (BoundedMap.keys_delete_subset _ _ present)
  | ktimeGetNs | startTimesLookup | fetchAndAdd => exact Or.inr present

theorem mem_keys_of_foundKey {now : UInt64} {operation : BpfOp} {kernel : KernelState}
    {key : UInt64}
    (found : foundKey ⟨operation, (interpret now operation kernel).1⟩ = some key) :
    key ∈ kernel.startTimes.keys := by
  cases operation with
  | startTimesLookup looked =>
      cases entry : kernel.startTimes.lookup looked with
      | none => simp [interpret, entry, foundKey] at found
      | some start =>
          have same : looked = key := by
            simpa [interpret, entry, foundKey] using found
          subst same
          simp [entry]
  | _ => simp [foundKey] at found

theorem addedBucket_eq_some_iff {performed : Performed BpfOp.Answer} {bucket : Fin histBuckets} :
    addedBucket performed = some bucket ↔ performed.operation = .fetchAndAdd bucket := by
  rcases performed with ⟨operation, answer⟩
  cases operation <;> simp [addedBucket]

/-- The points that a handler can have come to, with the numbers of start times that it has found
and counted so far. -/
inductive Stage : ℕ → ℕ → BpfProgram Unit → Prop
  | issue (key : UInt64) :
    Stage 0 0 (.call .ktimeGetNs fun (ts : UInt64) =>
      .call (.startTimesUpdate key ts) fun _ => .done ())
  | update (key ts : UInt64) : Stage 0 0 (.call (.startTimesUpdate key ts) fun _ => .done ())
  | complete (key : UInt64) : Stage 0 0 (.call (.startTimesLookup key) (completeAfter key))
  | uncounted : Stage 0 0 (.done ())
  | clock (key start : UInt64) : Stage 1 0 (completeFrom key start)
  | delete (key : UInt64) (bucket : Fin histBuckets) :
    Stage 1 0 (.call (.startTimesDelete key) fun _ => .call (.fetchAndAdd bucket) .done)
  | add (bucket : Fin histBuckets) : Stage 1 0 (.call (.fetchAndAdd bucket) .done)
  | counted : Stage 1 1 (.done ())

theorem Handler.stage_program (handler : Handler) : Stage 0 0 handler.program := by
  cases handler with
  | issue ctx => exact .issue _
  | complete ctx =>
      rw [program, traceRqComplete_eq]
      exact .complete _

theorem Stage.step {found added : ℕ} {operation : BpfOp}
    {next : operation.Answer → BpfProgram Unit} (stage : Stage found added (.call operation next))
    (answer : operation.Answer) :
    Stage (found + if (foundKey ⟨operation, answer⟩).isSome then 1 else 0)
      (added + if (addedBucket ⟨operation, answer⟩).isSome then 1 else 0) (next answer) := by
  cases stage with
  | issue key => exact .update key answer
  | update key ts => exact .uncounted
  | complete key =>
      cases answer with
      | none => exact .uncounted
      | some start => exact .clock key start
  | clock key start => exact .delete key _
  | delete key bucket => exact .add bucket
  | add bucket => exact .counted

theorem Stage.of_add {found added : ℕ} {bucket : Fin histBuckets} {next : Unit → BpfProgram Unit}
    (stage : Stage found added (.call (.fetchAndAdd bucket) next)) : found = 1 ∧ added = 0 := by
  cases stage
  exact ⟨rfl, rfl⟩

/-- A thread finds only what was updated before, and counts only what it has found, and only
once. -/
def Orderly (before : List (HandlerCall Thread)) (call : HandlerCall Thread) : Prop :=
  (∀ key ∈ foundKey call.2, ∃ earlier ∈ before, updatedKey earlier.2 = some key) ∧
  ((addedBucket call.2).isSome → finds call.1.1 before = 1 ∧ adds call.1.1 before = 0)

structure Paced (trace : List (HandlerCall Thread)) (pool : HandlerPool Thread) : Prop where
  stages : ∀ thread, Stage (finds thread trace) (adds thread trace) (pool.programs thread)
  entries : ∀ key ∈ pool.shared.startTimes.keys, ∃ call ∈ trace, updatedKey call.2 = some key
  counters : ∀ bucket, pool.shared.ioLatencyHist bucket =
    UInt64.ofNat (History.count (fun _ call => addedBucket call.2 = some bucket) trace)
  orderly : History.Along Orderly trace

theorem Paced.start (handlers : Thread → Handler) : Paced [] (startHandlers handlers) where
  stages thread := (handlers thread).stage_program
  entries := by simp [startHandlers]
  counters := fun _ => rfl
  orderly := History.along_nil _

theorem Paced.step {trace : List (HandlerCall Thread)} {pool next : HandlerPool Thread}
    {label : Thread × UInt64} {performed : Performed BpfOp.Answer} (paced : Paced trace pool)
    (stepped : Pool.step interpret pool label = some (performed, next)) :
    Paced (trace ++ [(label, performed)]) next := by
  rcases Pool.step_eq_some.mp stepped with ⟨operation, following, program, rfl, rfl⟩
  have stage := paced.stages label.1
  rw [program] at stage
  constructor
  · intro thread
    by_cases own : thread = label.1
    · subst own
      simpa [finds, adds] using stage.step _
    · simpa [finds, adds, Ne.symm own, Function.update_of_ne own] using paced.stages thread
  · intro key present
    simp only [List.mem_append, List.mem_singleton]
    rcases updatedKey_or_mem_keys present with updated | old
    · exact ⟨_, Or.inr rfl, updated⟩
    · rcases paced.entries key old with ⟨call, isCall, isUpdate⟩
      exact ⟨call, Or.inl isCall, isUpdate⟩
  · intro bucket
    rw [ioLatencyHist_interpret, paced.counters bucket, History.count_concat, UInt64.ofNat_add]
    simp only [addedBucket_eq_some_iff]
    split <;> rfl
  · rw [History.along_concat]
    refine ⟨paced.orderly, ?_, ?_⟩
    · intro key isFound
      exact paced.entries key (mem_keys_of_foundKey isFound)
    · intro isAdd
      rcases Option.isSome_iff_exists.mp isAdd with ⟨bucket, isBucket⟩
      cases addedBucket_eq_some_iff.mp isBucket
      exact stage.of_add

theorem paced_run {handlers : Thread → Handler} {schedule : List (Thread × UInt64)}
    {trace : List (HandlerCall Thread)} {final : HandlerPool Thread}
    (ran : (Pool.step interpret).run (startHandlers handlers) schedule = some (trace, final)) :
    Paced trace final :=
  Machine.run_invariant (Paced.start handlers)
    (fun _ _ _ _ _ paced stepped => paced.step stepped) ran

/-! ## The use of a start time -/

/-- The lookup finds what the update has stored: the update is the last one of the key before. -/
def Finds (calls : List (HandlerCall Thread)) (update lookup : ℕ) : Prop :=
  ∃ key, (∃ call ∈ calls[lookup]?, foundKey call.2 = some key) ∧
    (∃ call ∈ calls[update]?, updatedKey call.2 = some key) ∧ update < lookup ∧
    ∀ later, update < later → later < lookup → ∀ call ∈ calls[later]?, updatedKey call.2 ≠ some key

/-- The increment counts what the update has stored: its thread has found it before. -/
def Uses (calls : List (HandlerCall Thread)) (update increment : ℕ) : Prop :=
  ∃ lookup, lookup < increment ∧ Finds calls update lookup ∧
    ∃ lookupCall ∈ calls[lookup]?, ∃ call ∈ calls[increment]?,
      (addedBucket call.2).isSome ∧ call.1.1 = lookupCall.1.1

def Touches (key : UInt64) (call : HandlerCall Thread) : Prop :=
  updatedKey call.2 = some key ∨ foundKey call.2 = some key

instance (key : UInt64) : DecidablePred (@Touches Thread key) := fun _ =>
  inferInstanceAs (Decidable (_ ∨ _))

/-- A lookup finds no entry that an earlier lookup has found since its last update. -/
def FindsFresh (before : List (HandlerCall Thread)) (call : HandlerCall Thread) : Prop :=
  ∀ key ∈ foundKey call.2, ∀ earlier ∈ History.last (Touches key) before,
    foundKey earlier.2 = none

instance (before : List (HandlerCall Thread)) : DecidablePred (FindsFresh before) := fun call =>
  Option.decidableForallMem (foundKey call.2)

section Uses

variable {calls : List (HandlerCall Thread)} {update lookup increment other : ℕ}

omit [DecidableEq Thread] in
/-- Without an update in between, no later lookup finds the same entry. -/
theorem not_finds_later (fresh : History.Along FindsFresh calls)
    (finds : Finds calls update lookup) (findsOther : Finds calls update other) :
    ¬lookup < other := by
  intro later
  rcases finds with ⟨key, ⟨call, isCall, found⟩, ⟨updateCall, isUpdate, updated⟩, afterUpdate, _⟩
  rcases findsOther with
    ⟨otherKey, ⟨otherCall, isOther, otherFound⟩, ⟨sameCall, isSame, sameUpdated⟩, _, noUpdate⟩
  rw [Option.mem_def] at isCall isUpdate isOther isSame
  have sameKey : otherKey = key := by
    rw [isUpdate, Option.some.injEq] at isSame
    rw [← isSame, updated, Option.some.injEq] at sameUpdated
    exact sameUpdated.symm
  subst sameKey
  rcases List.getElem?_eq_some_iff.mp isOther with ⟨inside, rfl⟩
  have freshOther := fresh other inside otherKey otherFound
  -- The entry is touched by the first lookup, and from there on only by lookups.
  have isEarlier : (calls.take other)[lookup]? = some call :=
    History.getElem?_take_eq_some_iff.mpr ⟨later, isCall⟩
  have touched : History.last (Touches otherKey) (calls.take other) ≠ none :=
    History.last_ne_none (List.mem_of_getElem? isEarlier) (Or.inr found)
  rcases Option.ne_none_iff_exists'.mp touched with ⟨lastCall, isLast⟩
  have notFound := freshOther lastCall isLast
  rcases History.last_eq_some_iff.mp isLast with ⟨position, isPosition, touches, noneLater⟩
  have notBefore : lookup ≤ position := by
    by_contra before
    exact noneLater lookup (by omega) call isEarlier (Or.inr found)
  rcases History.getElem?_take_eq_some_iff.mp isPosition with ⟨positionLt, isLastCall⟩
  rcases touches with wasUpdated | wasFound
  · exact noUpdate position (by omega) positionLt lastCall isLastCall wasUpdated
  · simp [wasFound] at notFound

theorem uses_unique (fresh : History.Along FindsFresh calls)
    (orderly : History.Along Orderly calls) (uses : Uses calls update increment)
    (usesOther : Uses calls update other) : ¬increment < other := by
  intro later
  rcases uses with ⟨lookup, _, finds, lookupCall, isLookup, call, isCall, added, thread⟩
  rcases usesOther with
    ⟨otherLookup, _, findsOther, otherLookupCall, isOtherLookup, otherCall, isOther, otherAdded,
      otherThread⟩
  have sameLookup : lookup = otherLookup := by
    have := not_finds_later fresh finds findsOther
    have := not_finds_later fresh findsOther finds
    omega
  subst sameLookup
  have sameThread : call.1.1 = otherCall.1.1 := by
    rw [Option.mem_def] at isLookup isOtherLookup
    rw [isLookup, Option.some.injEq] at isOtherLookup
    rw [thread, otherThread, isOtherLookup]
  rcases List.getElem?_eq_some_iff.mp isOther with ⟨inside, rfl⟩
  have noneBefore := ((orderly other inside).2 otherAdded).2
  exact History.not_select_of_count_eq_zero noneBefore later isCall ⟨sameThread, added⟩

theorem exists_uses (orderly : History.Along Orderly calls) {call : HandlerCall Thread}
    (isCall : calls[increment]? = some call) (added : (addedBucket call.2).isSome) :
    ∃ update, Uses calls update increment := by
  rcases List.getElem?_eq_some_iff.mp isCall with ⟨inside, rfl⟩
  have one := ((orderly increment inside).2 added).1
  have nonzero : finds calls[increment].1.1 (calls.take increment) ≠ 0 := by
    rw [one]
    exact one_ne_zero
  rcases History.exists_of_count_ne_zero nonzero with ⟨lookup, lookupCall, isEarlier, thread, found⟩
  rcases History.getElem?_take_eq_some_iff.mp isEarlier with ⟨lookupLt, isLookup⟩
  rcases Option.isSome_iff_exists.mp found with ⟨key, isKey⟩
  rcases List.getElem?_eq_some_iff.mp isLookup with ⟨lookupInside, rfl⟩
  rcases (orderly lookup lookupInside).1 key isKey with ⟨earlier, isBefore, isUpdate⟩
  have updatedBefore : History.last
      (fun call : HandlerCall Thread => updatedKey call.2 = some key) (calls.take lookup) ≠ none :=
    History.last_ne_none isBefore isUpdate
  rcases Option.ne_none_iff_exists'.mp updatedBefore with ⟨updateCall, isLast⟩
  rcases History.last_eq_some_iff.mp isLast with ⟨update, wasUpdate, updated, noneLater⟩
  rcases History.getElem?_take_eq_some_iff.mp wasUpdate with ⟨updateLt, isUpdateCall⟩
  have finds : Finds calls update lookup := by
    refine ⟨key, ⟨_, isLookup, isKey⟩, ⟨_, isUpdateCall, updated⟩, updateLt, ?_⟩
    intro later isLater beforeLookup laterCall isLaterCall
    apply noneLater later isLater
    exact History.getElem?_take_eq_some_iff.mpr ⟨beforeLookup, isLaterCall⟩
  exact ⟨update, lookup, lookupLt, finds, _, isLookup, _, isCall, added, thread.symm⟩

theorem count_added_le (fresh : History.Along FindsFresh calls)
    (orderly : History.Along Orderly calls) :
    History.count (fun _ (call : HandlerCall Thread) => (addedBucket call.2).isSome) calls ≤
      History.count (fun _ (call : HandlerCall Thread) => (updatedKey call.2).isSome) calls := by
  apply Finset.card_le_card_of_forall_subsingleton (fun increment update =>
    Uses calls update increment)
  · intro increment present
    rcases History.mem_positions.mp present with ⟨inside, added⟩
    rcases exists_uses orderly (List.getElem?_eq_getElem inside) added with ⟨update, uses⟩
    refine ⟨update, ?_, uses⟩
    rcases uses with ⟨_, _, ⟨key, _, ⟨call, isUpdate, updated⟩, _⟩, _⟩
    rcases List.getElem?_eq_some_iff.mp isUpdate with ⟨updateInside, rfl⟩
    exact History.mem_positions.mpr ⟨updateInside, by simp [updated]⟩
  · rintro update _ increment ⟨_, uses⟩ other ⟨_, usesOther⟩
    have := uses_unique fresh orderly uses usesOther
    have := uses_unique fresh orderly usesOther uses
    omega

omit [DecidableEq Thread] in
theorem sum_count_added :
    ∑ bucket, History.count (fun _ (call : HandlerCall Thread) =>
        addedBucket call.2 = some bucket) calls =
      History.count (fun _ (call : HandlerCall Thread) => (addedBucket call.2).isSome) calls := by
  induction calls using List.reverseRecOn with
  | nil => simp
  | append_singleton calls call ih =>
      simp only [History.count_concat, Finset.sum_add_distrib, ih]
      cases addedBucket call.2 <;> simp

end Uses

/-- If no lookup finds an entry that an earlier lookup has found since its last update, then every
start time is used for at most one increment, and the histogram never counts more than was
recorded. -/
theorem startTime_used_at_most_once (handlers : Thread → Handler)
    (schedule : List (Thread × UInt64)) (trace : List (HandlerCall Thread))
    (final : HandlerPool Thread)
    (ran : (Pool.step interpret).run (startHandlers handlers) schedule = some (trace, final))
    (fresh : History.Along FindsFresh trace) :
    (∀ update increment other, Uses trace update increment → Uses trace update other →
      increment = other) ∧
    ∑ bucket, (final.shared.ioLatencyHist bucket).toNat ≤
      History.count (fun _ (call : HandlerCall Thread) => (updatedKey call.2).isSome) trace := by
  have paced := paced_run ran
  constructor
  · intro update increment other uses usesOther
    have := uses_unique fresh paced.orderly uses usesOther
    have := uses_unique fresh paced.orderly usesOther uses
    omega
  · calc ∑ bucket, (final.shared.ioLatencyHist bucket).toNat
        ≤ ∑ bucket, History.count (fun _ (call : HandlerCall Thread) =>
            addedBucket call.2 = some bucket) trace := by
          apply Finset.sum_le_sum
          intro bucket _
          rw [paced.counters bucket, UInt64.toNat_ofNat']
          exact Nat.mod_le _ _
      _ = _ := sum_count_added
      _ ≤ _ := count_added_le fresh paced.orderly

def doubleCompletion : Fin 3 → Handler
  | 0 => .issue ⟨8, 0⟩
  | 1 => .complete ⟨8, 0⟩
  | 2 => .complete ⟨8, 0⟩

theorem startTime_used_at_most_once_in_turn :
    ∃ trace final, (Pool.step interpret).run (startHandlers doubleCompletion)
        [(0, 1000), (0, 1001), (1, 2000), (1, 2001), (1, 2002), (1, 2003), (2, 3000)] =
          some (trace, final) ∧
      ∑ bucket, (final.shared.ioLatencyHist bucket).toNat ≤
        History.count (fun _ (call : HandlerCall (Fin 3)) => (updatedKey call.2).isSome) trace := by
  have evaluated : ((Pool.step interpret).run (startHandlers doubleCompletion)
      [(0, 1000), (0, 1001), (1, 2000), (1, 2001), (1, 2002), (1, 2003), (2, 3000)]).map
        (fun result => decide (History.Along FindsFresh result.1)) = some true := by
    decide +kernel
  rcases Option.map_eq_some_iff.mp evaluated with ⟨⟨trace, final⟩, ran, fresh⟩
  exact ⟨trace, final, ran,
    (startTime_used_at_most_once _ _ _ _ ran (of_decide_eq_true fresh)).2⟩

/-- Both completions look the entry up before either of them deletes it. -/
theorem startTime_used_twice :
    ¬∀ (handlers : Fin 3 → Handler) schedule trace final,
      (Pool.step interpret).run (startHandlers handlers) schedule = some (trace, final) →
      (∀ update increment other, Uses trace update increment → Uses trace update other →
        increment = other) ∧
      ∑ bucket, (final.shared.ioLatencyHist bucket).toNat ≤
        History.count (fun _ (call : HandlerCall (Fin 3)) => (updatedKey call.2).isSome) trace := by
  intro usedOnce
  have evaluated : ((Pool.step interpret).run (startHandlers doubleCompletion)
      [(0, 1000), (0, 1001), (1, 2000), (2, 2000), (1, 2001), (1, 2002), (1, 2003),
        (2, 2001), (2, 2002), (2, 2003)]).map
        (fun result => (∑ bucket, (result.2.shared.ioLatencyHist bucket).toNat,
          History.count (fun _ (call : HandlerCall (Fin 3)) => (updatedKey call.2).isSome)
            result.1)) = some (2, 1) := by
    decide +kernel
  rcases Option.map_eq_some_iff.mp evaluated with ⟨⟨trace, final⟩, ran, counts⟩
  have bound := (usedOnce _ _ _ _ ran).2
  simp only [Prod.mk.injEq] at counts
  rw [counts.1, counts.2] at bound
  exact absurd bound (by decide)

end Sysmon.Ebpf
