import Mathlib.Tactic.IntervalCases
import Sysmon.Ebpf.Overlap
import Sysmon.Ebpf.Pointers

/-!
# Where a counted latency comes from

However the handlers overlap, a counter is never raised for a latency whose two
ends were not read from the clock. This file follows the readings behind every
increment: one by the completion handler that counts, and one by an issue
handler, which has stored it in the cell that the completion handler loads from.

The completion handler holds a pointer while it reads the clock. If nobody
writes to its key between its lookup and its load, the start time was stored
under the same key, and the difference is the time between the two readings.
Otherwise the entry may have been replaced, or its memory may have been taken
for another key. What is loaded then is still the clock reading of an issue
handler, but it may be another key's, and later than the completion's own.

`Origin` lists the points that the code of a handler can have come to, together
with the earlier calls that its values come from.
-/

namespace Sysmon.Ebpf

open PointerState Pointers

variable {Thread : Type*}

/-- The call decides what is stored under the key. -/
def Writes (key : UInt64) : Performed PointerOp.Answer → Prop
  | ⟨.startTimesUpdate updated _, stored⟩ => updated = key ∧ stored ≠ none
  | ⟨.startTimesDelete deleted, _⟩ => deleted = key
  | _ => False

/-- Between the positions there is a call that writes to the key. -/
def WrittenBetween (calls : List (PointerCall Thread)) (key : UInt64) (first last : ℕ) : Prop :=
  ∃ later, first < later ∧ later < last ∧ ∃ call ∈ calls[later]?, Writes key call.2

/-- The trace has the call of the thread at the position, with some input. -/
def CalledAt (calls : List (PointerCall Thread)) (position : ℕ) (thread : Thread)
    (performed : Performed PointerOp.Answer) : Prop :=
  ∃ input, calls[position]? = some ((thread, input), performed)

/-- The thread has read its clock at the position. -/
def ReadClock (calls : List (PointerCall Thread)) (position : ℕ) (thread : Thread)
    (reading : UInt64) : Prop :=
  ∃ cell, calls[position]? = some ((thread, reading, cell), ⟨.ktimeGetNs, reading⟩)

/-- An issue handler of the key has stored its clock reading in the cell. -/
def StoredStart (handlers : Thread → Handler) (calls : List (PointerCall Thread))
    (key start : UInt64) (cell : Cell) (issued stored : ℕ) : Prop :=
  ∃ issuer ctx, handlers issuer = .issue ctx ∧ packKey ctx.dev ctx.sector = key ∧
    issued < stored ∧ ReadClock calls issued issuer start ∧
    CalledAt calls stored issuer ⟨.startTimesUpdate key start, some cell⟩

/-- What was stored under `other` is the entry that the lookup of the key has found, or it was
stored after a later write to the key. -/
def Behind (calls : List (PointerCall Thread)) (key other : UInt64) (looked stored : ℕ) : Prop :=
  stored < looked ∧ other = key ∧ ¬WrittenBetween calls key stored looked ∨
    looked < stored ∧ WrittenBetween calls key looked (stored + 1)

/-- The operands of a difference, and the positions of the calls that they come from. -/
structure Measurement where
  key : UInt64
  other : UInt64
  start : UInt64
  now : UInt64
  issued : ℕ
  stored : ℕ
  looked : ℕ
  read : ℕ
  loaded : ℕ

/-- The thread runs a completion handler, has found an entry, has read the clock, and has loaded
the clock reading of an issue handler. -/
structure Measured (handlers : Thread → Handler) (calls : List (PointerCall Thread))
    (thread : Thread) (m : Measurement) : Prop where
  completes : ∃ ctx, handlers thread = .complete ctx ∧ packKey ctx.dev ctx.sector = m.key
  loads : ∃ cell, CalledAt calls m.looked thread ⟨.startTimesLookup m.key, some cell⟩ ∧
    CalledAt calls m.loaded thread ⟨.load cell, m.start⟩ ∧
    StoredStart handlers calls m.other m.start cell m.issued m.stored
  readClock : ReadClock calls m.read thread m.now
  ordered : m.looked < m.read ∧ m.read < m.loaded ∧ m.stored < m.loaded
  behind : Behind calls m.key m.other m.looked m.stored

section Growth

variable {handlers : Thread → Handler} {calls : List (PointerCall Thread)} {thread : Thread}
  {key other start now : UInt64} {cell : Cell} {issued stored looked position first last : ℕ}
  {performed : Performed PointerOp.Answer} {m : Measurement}

theorem CalledAt.inside (called : CalledAt calls position thread performed) :
    position < calls.length := by
  rcases called with ⟨input, isCall⟩
  exact (List.getElem?_eq_some_iff.mp isCall).1

theorem CalledAt.concat (called : CalledAt calls position thread performed)
    (call : PointerCall Thread) : CalledAt (calls ++ [call]) position thread performed := by
  rcases called with ⟨input, isCall⟩
  exact ⟨input, History.getElem?_concat_eq_some_iff.mpr (Or.inl isCall)⟩

theorem ReadClock.inside (readClock : ReadClock calls position thread now) :
    position < calls.length := by
  rcases readClock with ⟨cell, isCall⟩
  exact (List.getElem?_eq_some_iff.mp isCall).1

theorem ReadClock.concat (readClock : ReadClock calls position thread now)
    (call : PointerCall Thread) : ReadClock (calls ++ [call]) position thread now := by
  rcases readClock with ⟨cell, isCall⟩
  exact ⟨cell, History.getElem?_concat_eq_some_iff.mpr (Or.inl isCall)⟩

theorem StoredStart.inside (storedStart : StoredStart handlers calls key start cell issued stored) :
    issued < stored ∧ stored < calls.length := by
  rcases storedStart with ⟨_, _, _, _, before, _, called⟩
  exact ⟨before, called.inside⟩

theorem StoredStart.concat
    (storedStart : StoredStart handlers calls key start cell issued stored)
    (call : PointerCall Thread) :
    StoredStart handlers (calls ++ [call]) key start cell issued stored := by
  rcases storedStart with ⟨issuer, ctx, isIssue, sameKey, before, readClock, called⟩
  exact ⟨issuer, ctx, isIssue, sameKey, before, readClock.concat call, called.concat call⟩

theorem writtenBetween_concat_iff (call : PointerCall Thread) :
    WrittenBetween (calls ++ [call]) key first last ↔
      WrittenBetween calls key first last ∨
        first < calls.length ∧ calls.length < last ∧ Writes key call.2 := by
  simp only [WrittenBetween, Option.mem_def, History.getElem?_concat_eq_some_iff]
  constructor
  · rintro ⟨later, after, before, written, isCall | ⟨rfl, rfl⟩, writes⟩
    · exact Or.inl ⟨later, after, before, written, isCall, writes⟩
    · exact Or.inr ⟨after, before, writes⟩
  · rintro (⟨later, after, before, written, isCall, writes⟩ | ⟨after, before, writes⟩)
    · exact ⟨later, after, before, written, Or.inl isCall, writes⟩
    · exact ⟨calls.length, after, before, call, Or.inr ⟨rfl, rfl⟩, writes⟩

theorem Behind.concat (behind : Behind calls key other looked stored)
    (inside : looked < calls.length) (call : PointerCall Thread) :
    Behind (calls ++ [call]) key other looked stored := by
  rcases behind with ⟨before, same, unwritten⟩ | ⟨after, written⟩
  · refine Or.inl ⟨before, same, ?_⟩
    rw [writtenBetween_concat_iff]
    rintro (old | ⟨_, beyond, _⟩)
    · exact unwritten old
    · omega
  · exact Or.inr ⟨after, (writtenBetween_concat_iff call).mpr (Or.inl written)⟩

theorem Measured.inside (measured : Measured handlers calls thread m) :
    m.loaded < calls.length := by
  rcases measured.loads with ⟨_, _, called, _⟩
  exact called.inside

theorem Measured.concat (measured : Measured handlers calls thread m)
    (call : PointerCall Thread) : Measured handlers (calls ++ [call]) thread m := by
  rcases measured.loads with ⟨cell, lookedUp, loaded, storedStart⟩
  exact
    { completes := measured.completes
      loads := ⟨cell, lookedUp.concat call, loaded.concat call, storedStart.concat call⟩
      readClock := measured.readClock.concat call
      ordered := measured.ordered
      behind := measured.behind.concat lookedUp.inside call }

end Growth

/-! ## What a step does to entries and cells -/

section Effects

variable {state : PointerState} {input : UInt64 × Cell} {operation : PointerOp} {key : UInt64}
  {cell : Cell}

/-- The entry of a key changes by a write only. -/
theorem lookup_interpret_of_not_writes
    (silent : ¬Writes key ⟨operation, (interpret input operation state).1⟩) :
    (interpret input operation state).2.startTimes.lookup key = state.startTimes.lookup key := by
  cases operation with
  | startTimesUpdate updated value =>
      by_cases stores : state.Stores updated input.2
      · rw [interpret_update_of_stores stores] at silent ⊢
        apply BoundedMap.lookup_update_of_ne
        rintro rfl
        exact silent ⟨rfl, by simp⟩
      · rw [interpret_update_of_not_stores stores]
  | startTimesDelete deleted =>
      apply BoundedMap.lookup_delete_of_ne
      rintro rfl
      exact silent rfl
  | ktimeGetNs | startTimesLookup | load | fetchAndAdd => rfl

variable (state input operation) in
/-- A cell changes by an update that is carried out in it, and that finds no other entry there. -/
theorem memory_interpret (cell : Cell) :
    (interpret input operation state).2.memory cell = state.memory cell ∨
      ∃ updated, state.Free updated cell ∧
        (⟨operation, (interpret input operation state).1⟩ : Performed PointerOp.Answer) =
          ⟨.startTimesUpdate updated ((interpret input operation state).2.memory cell),
            some cell⟩ := by
  cases operation with
  | startTimesUpdate updated value =>
      by_cases stores : state.Stores updated input.2
      · rw [interpret_update_of_stores stores]
        by_cases same : cell = input.2
        · subst same
          exact Or.inr ⟨updated, stores.2, by dsimp only; rw [Function.update_self]⟩
        · exact Or.inl (Function.update_of_ne same _ _)
      · rw [interpret_update_of_not_stores stores]
        exact Or.inl rfl
  | ktimeGetNs | startTimesLookup | load | startTimesDelete | fetchAndAdd => exact Or.inl rfl

/-- An entry is new, or it was there before the call and its value is the same. -/
theorem lookup_interpret_eq_some
    (found : (interpret input operation state).2.startTimes.lookup key = some cell) :
    (⟨operation, (interpret input operation state).1⟩ : Performed PointerOp.Answer) =
        ⟨.startTimesUpdate key ((interpret input operation state).2.memory cell), some cell⟩ ∨
      state.startTimes.lookup key = some cell ∧
        (interpret input operation state).2.memory cell = state.memory cell ∧
        ¬Writes key ⟨operation, (interpret input operation state).1⟩ := by
  by_cases writes : Writes key ⟨operation, (interpret input operation state).1⟩
  · left
    cases operation with
    | startTimesUpdate updated value =>
        rcases writes with ⟨rfl, carriedOut⟩
        by_cases stores : state.Stores updated input.2
        · rw [interpret_update_of_stores stores] at found ⊢
          rw [BoundedMap.lookup_update_self stores.1, Option.some.injEq] at found
          subst found
          dsimp only
          rw [Function.update_self]
        · rw [interpret_update_of_not_stores stores] at carriedOut
          exact absurd rfl carriedOut
    | startTimesDelete deleted =>
        rw [show deleted = key from writes] at found
        simp [interpret] at found
    | ktimeGetNs | startTimesLookup | load | fetchAndAdd => exact absurd writes id
  · right
    rw [lookup_interpret_of_not_writes writes] at found
    refine ⟨found, ?_, writes⟩
    rcases memory_interpret state input operation cell with same | ⟨updated, free, isUpdate⟩
    · exact same
    · have isKey : key = updated := free key (by simp [found]) found
      rw [isUpdate, isKey] at writes
      exact absurd ⟨rfl, by simp⟩ writes

end Effects

/-! ## Points in the code of a handler -/

/-- What the cell contains is the clock reading of an issue handler. -/
def Sourced (handlers : Thread → Handler) (calls : List (PointerCall Thread))
    (state : PointerState) (key : UInt64) (cell : Cell) (looked : ℕ) : Prop :=
  ∃ other issued stored,
    StoredStart handlers calls other (state.memory cell) cell issued stored ∧
      Behind calls key other looked stored

/-- The thread has found the entry of the key in the cell, and either the entry is still there or
the key was written to since. -/
structure HoldsPointer (handlers : Thread → Handler) (calls : List (PointerCall Thread))
    (state : PointerState) (thread : Thread) (key : UInt64) (cell : Cell) (looked : ℕ) : Prop where
  lookedUp : CalledAt calls looked thread ⟨.startTimesLookup key, some cell⟩
  entry : state.startTimes.lookup key = some cell ∨ WrittenBetween calls key looked calls.length
  sourced : Sourced handlers calls state key cell looked

inductive Origin (handlers : Thread → Handler) (calls : List (PointerCall Thread))
    (state : PointerState) (thread : Thread) : PointerProgram Unit → Prop
  | issue (ctx : BlockRq) (isIssue : handlers thread = .issue ctx) :
    Origin handlers calls state thread (.call .ktimeGetNs fun (ts : UInt64) =>
      .call (.startTimesUpdate (packKey ctx.dev ctx.sector) ts) fun _ => .done ())
  | update (ctx : BlockRq) (ts : UInt64) (issued : ℕ) (isIssue : handlers thread = .issue ctx)
    (readClock : ReadClock calls issued thread ts) :
    Origin handlers calls state thread
      (.call (.startTimesUpdate (packKey ctx.dev ctx.sector) ts) fun _ => .done ())
  | complete (ctx : BlockRq) (isComplete : handlers thread = .complete ctx) :
    Origin handlers calls state thread (.call (.startTimesLookup (packKey ctx.dev ctx.sector))
      (Pointers.completeAfter (packKey ctx.dev ctx.sector)))
  | clock (ctx : BlockRq) (cell : Cell) (looked : ℕ)
    (isComplete : handlers thread = .complete ctx)
    (holds : HoldsPointer handlers calls state thread (packKey ctx.dev ctx.sector) cell looked) :
    Origin handlers calls state thread
      (Pointers.completeAfter (packKey ctx.dev ctx.sector) (some cell))
  | load (ctx : BlockRq) (now : UInt64) (cell : Cell) (looked read : ℕ)
    (isComplete : handlers thread = .complete ctx)
    (holds : HoldsPointer handlers calls state thread (packKey ctx.dev ctx.sector) cell looked)
    (before : looked < read) (readClock : ReadClock calls read thread now) :
    Origin handlers calls state thread
      (.call (.load cell) (completeWith (packKey ctx.dev ctx.sector) now))
  | delete (m : Measurement) (measured : Measured handlers calls thread m) :
    Origin handlers calls state thread (completeWith m.key m.now m.start)
  | add (m : Measurement) (measured : Measured handlers calls thread m) :
    Origin handlers calls state thread
      (.call (.fetchAndAdd (latencyBucket (m.now - m.start))) .done)
  | finished : Origin handlers calls state thread (.done ())

/-- Every entry of `start_times` was stored by an issue handler of its key. -/
def EntriesHeld (handlers : Thread → Handler) (calls : List (PointerCall Thread))
    (state : PointerState) : Prop :=
  ∀ key cell, state.startTimes.lookup key = some cell →
    ∃ issued stored, StoredStart handlers calls key (state.memory cell) cell issued stored ∧
      ¬WrittenBetween calls key stored calls.length

section Points

variable {handlers : Thread → Handler} {calls : List (PointerCall Thread)} {state : PointerState}
  {thread caller : Thread} {input : UInt64 × Cell} {operation : PointerOp}
  {following : operation.Answer → PointerProgram Unit} {key : UInt64} {cell : Cell} {looked : ℕ}

theorem Origin.start (handlers : Thread → Handler) (calls : List (PointerCall Thread))
    (state : PointerState) (thread : Thread) :
    Origin handlers calls state thread (handlers thread).pointerProgram := by
  cases isHandler : handlers thread with
  | issue ctx =>
      rw [Handler.pointerProgram, Pointers.traceRqIssue_eq]
      exact .issue ctx isHandler
  | complete ctx =>
      rw [Handler.pointerProgram, Pointers.traceRqComplete_eq]
      exact .complete ctx isHandler

/-- An update that is carried out stores the clock reading of its issue handler. -/
theorem Origin.storedStart {start : UInt64}
    (origin : Origin handlers calls state caller (.call operation following))
    (isUpdate : (⟨operation, (interpret input operation state).1⟩ : Performed PointerOp.Answer) =
      ⟨.startTimesUpdate key start, some cell⟩) :
    ∃ issued, StoredStart handlers
      (calls ++ [((caller, input), ⟨operation, (interpret input operation state).1⟩)])
      key start cell issued calls.length := by
  rw [isUpdate]
  rcases Performed.mk.inj isUpdate with ⟨rfl, _⟩
  cases origin with
  | update ctx ts issued isIssue readClock =>
      exact ⟨issued, caller, ctx, isIssue, rfl, readClock.inside, readClock.concat _, input,
        by simp⟩

theorem HoldsPointer.step
    (holds : HoldsPointer handlers calls state thread key cell looked)
    (origin : Origin handlers calls state caller (.call operation following)) :
    HoldsPointer handlers
      (calls ++ [((caller, input), ⟨operation, (interpret input operation state).1⟩)])
      (interpret input operation state).2 thread key cell looked := by
  have inside := holds.lookedUp.inside
  refine ⟨holds.lookedUp.concat _, ?_, ?_⟩
  · rw [List.length_append, List.length_singleton, writtenBetween_concat_iff]
    rcases holds.entry with still | ⟨later, after, before, written⟩
    · by_cases writes : Writes key ⟨operation, (interpret input operation state).1⟩
      · exact Or.inr (Or.inr ⟨inside, by omega, writes⟩)
      · rw [lookup_interpret_of_not_writes writes]
        exact Or.inl still
    · exact Or.inr (Or.inl ⟨later, after, by omega, written⟩)
  · rcases memory_interpret state input operation cell with same | ⟨updated, free, isUpdate⟩
    · rcases holds.sourced with ⟨other, issued, stored, storedStart, behind⟩
      rw [Sourced, same]
      exact ⟨other, issued, stored, storedStart.concat _, behind.concat inside _⟩
    · rcases origin.storedStart isUpdate with ⟨issued, storedStart⟩
      refine ⟨updated, issued, calls.length, storedStart, Or.inr ⟨inside, ?_⟩⟩
      rw [writtenBetween_concat_iff]
      rcases holds.entry with still | ⟨later, after, before, written⟩
      · -- The cell belongs to the entry of the key, so that no other update may take it.
        have isKey : key = updated := free key (by simp [still]) still
        rw [isUpdate, isKey]
        exact Or.inr ⟨inside, by omega, rfl, by simp⟩
      · exact Or.inl ⟨later, after, by omega, written⟩

theorem EntriesHeld.step (entries : EntriesHeld handlers calls state)
    (origin : Origin handlers calls state caller (.call operation following)) :
    EntriesHeld handlers
      (calls ++ [((caller, input), ⟨operation, (interpret input operation state).1⟩)])
      (interpret input operation state).2 := by
  intro key cell found
  rw [List.length_append, List.length_singleton]
  rcases lookup_interpret_eq_some found with isUpdate | ⟨old, same, silent⟩
  · rcases origin.storedStart isUpdate with ⟨issued, storedStart⟩
    refine ⟨issued, calls.length, storedStart, ?_⟩
    rintro ⟨later, after, before, _⟩
    omega
  · rcases entries key cell old with ⟨issued, stored, storedStart, unwritten⟩
    rw [same]
    refine ⟨issued, stored, storedStart.concat _, ?_⟩
    rw [writtenBetween_concat_iff]
    rintro (⟨later, after, _, call, isCall, writes⟩ | ⟨_, _, writes⟩)
    · exact unwritten ⟨later, after, (List.getElem?_eq_some_iff.mp isCall).1, call, isCall, writes⟩
    · exact silent writes

theorem Origin.own_step (origin : Origin handlers calls state thread (.call operation following))
    (entries : EntriesHeld handlers calls state) :
    Origin handlers
      (calls ++ [((thread, input), ⟨operation, (interpret input operation state).1⟩)])
      (interpret input operation state).2 thread
      (following (interpret input operation state).1) := by
  cases origin with
  | issue ctx isIssue =>
      exact .update ctx input.1 calls.length isIssue ⟨input.2, by simp [interpret]⟩
  | update ctx ts issued isIssue readClock => exact .finished
  | complete ctx isComplete =>
      cases entry : state.startTimes.lookup (packKey ctx.dev ctx.sector) with
      | none =>
          simp only [interpret, entry, Pointers.completeAfter]
          exact .finished
      | some cell =>
          simp only [interpret, entry]
          rcases entries _ _ entry with ⟨issued, stored, storedStart, unwritten⟩
          apply Origin.clock ctx cell calls.length isComplete
          refine ⟨⟨input, by simp⟩, Or.inl entry, _, issued, stored, storedStart.concat _, ?_⟩
          refine Or.inl ⟨storedStart.inside.2, rfl, ?_⟩
          rw [writtenBetween_concat_iff]
          rintro (old | ⟨_, beyond, _⟩)
          · exact unwritten old
          · exact absurd beyond (lt_irrefl _)
  | clock ctx cell looked isComplete holds =>
      have inside := holds.lookedUp.inside
      exact .load ctx input.1 cell looked calls.length isComplete
        (holds.step (.clock ctx cell looked isComplete holds)) inside
        ⟨input.2, by simp [interpret]⟩
  | load ctx now cell looked read isComplete holds before readClock =>
      rcases holds.sourced with ⟨other, issued, stored, storedStart, behind⟩
      let m : Measurement := ⟨packKey ctx.dev ctx.sector, other, state.memory cell, now, issued,
        stored, looked, read, calls.length⟩
      apply Origin.delete m
      exact
        { completes := ⟨ctx, isComplete, rfl⟩
          loads := ⟨cell, holds.lookedUp.concat _, ⟨input, by simp [interpret, m]⟩,
            storedStart.concat _⟩
          readClock := readClock.concat _
          ordered := ⟨before, readClock.inside, storedStart.inside.2⟩
          behind := behind.concat holds.lookedUp.inside _ }
  | delete m measured => exact .add m (measured.concat _)
  | add m measured => exact .finished

theorem Origin.other_step {program : PointerProgram Unit}
    (origin : Origin handlers calls state thread program)
    (called : Origin handlers calls state caller (.call operation following)) :
    Origin handlers
      (calls ++ [((caller, input), ⟨operation, (interpret input operation state).1⟩)])
      (interpret input operation state).2 thread program := by
  cases origin with
  | issue ctx isIssue => exact .issue ctx isIssue
  | update ctx ts issued isIssue readClock =>
      exact .update ctx ts issued isIssue (readClock.concat _)
  | complete ctx isComplete => exact .complete ctx isComplete
  | clock ctx cell looked isComplete holds =>
      exact .clock ctx cell looked isComplete (holds.step called)
  | load ctx now cell looked read isComplete holds before readClock =>
      exact .load ctx now cell looked read isComplete (holds.step called) before
        (readClock.concat _)
  | delete m measured => exact .delete m (measured.concat _)
  | add m measured => exact .add m (measured.concat _)
  | finished => exact .finished

end Points

/-! ## Every schedule -/

section Schedules

variable [DecidableEq Thread] {handlers : Thread → Handler} {calls : List (PointerCall Thread)}

def countedBucket : Performed PointerOp.Answer → Option (Fin histBuckets)
  | ⟨.fetchAndAdd bucket, _⟩ => some bucket
  | _ => none

theorem countedBucket_eq_some_iff {performed : Performed PointerOp.Answer}
    {bucket : Fin histBuckets} :
    countedBucket performed = some bucket ↔ performed.operation = .fetchAndAdd bucket := by
  rcases performed with ⟨operation, answer⟩
  cases operation <;> simp [countedBucket]

/-- The call counts a latency that its thread has measured. -/
def CountsMeasured (handlers : Thread → Handler) (calls : List (PointerCall Thread))
    (position : ℕ) (thread : Thread) (bucket : Fin histBuckets) : Prop :=
  ∃ m, Measured handlers calls thread m ∧ m.loaded < position ∧
    bucket = latencyBucket (m.now - m.start)

structure Attributed (handlers : Thread → Handler) (calls : List (PointerCall Thread))
    (pool : PointerPool Thread) : Prop where
  origins : ∀ thread, Origin handlers calls pool.shared thread (pool.programs thread)
  entries : EntriesHeld handlers calls pool.shared
  increments : ∀ position call bucket, calls[position]? = some call →
    countedBucket call.2 = some bucket → CountsMeasured handlers calls position call.1.1 bucket

omit [DecidableEq Thread] in
theorem Attributed.start (handlers : Thread → Handler) :
    Attributed handlers [] (startPointers handlers) where
  origins := Origin.start handlers [] _
  entries := by simp [EntriesHeld, startPointers, PointerState.loaded]
  increments := by simp

theorem Attributed.step {pool next : PointerPool Thread} {label : Thread × UInt64 × Cell}
    {performed : Performed PointerOp.Answer} (attributed : Attributed handlers calls pool)
    (stepped : Pool.step interpret pool label = some (performed, next)) :
    Attributed handlers (calls ++ [(label, performed)]) next := by
  rcases Pool.step_eq_some.mp stepped with ⟨operation, following, program, rfl, rfl⟩
  have origin := attributed.origins label.1
  rw [program] at origin
  constructor
  · intro thread
    by_cases own : thread = label.1
    · subst own
      simpa using origin.own_step attributed.entries
    · simpa [Function.update_of_ne own] using (attributed.origins thread).other_step origin
  · exact attributed.entries.step origin
  · intro position call bucket isCall isAdd
    rcases History.getElem?_concat_eq_some_iff.mp isCall with old | ⟨rfl, rfl⟩
    · rcases attributed.increments position call bucket old isAdd with
        ⟨m, measured, before, isBucket⟩
      exact ⟨m, measured.concat _, before, isBucket⟩
    · have isFetchAndAdd := countedBucket_eq_some_iff.mp isAdd
      simp only at isFetchAndAdd
      subst isFetchAndAdd
      cases origin with
      | add m measured => exact ⟨m, measured.concat _, measured.inside, rfl⟩

theorem attributed_run {schedule : List (Thread × UInt64 × Cell)} {final : PointerPool Thread}
    (ran : (Pool.step interpret).run (startPointers handlers) schedule = some (calls, final)) :
    Attributed handlers calls final :=
  Machine.run_invariant (Attributed.start handlers)
    (fun _ _ _ _ _ attributed stepped => attributed.step stepped) ran

omit [DecidableEq Thread] in
/-- If nobody has written to the key between the lookup and the load, then what was loaded is the
entry that was found. -/
theorem Measured.own {thread : Thread} {m : Measurement}
    (measured : Measured handlers calls thread m)
    (unwritten : ¬WrittenBetween calls m.key m.looked m.loaded) :
    m.other = m.key ∧ m.stored < m.looked ∧ ¬WrittenBetween calls m.key m.stored m.looked := by
  rcases measured.behind with ⟨before, same, kept⟩ | ⟨_, later, after, upTo, written⟩
  · exact ⟨same, before, kept⟩
  · have within := measured.ordered.2.2
    exact absurd ⟨later, after, by omega, written⟩ unwritten

omit [DecidableEq Thread] in
theorem time_of_call {position : ℕ} {thread : Thread} {input : UInt64 × Cell}
    {performed : Performed PointerOp.Answer}
    (isCall : calls[position]? = some ((thread, input), performed)) :
    (calls.map fun call => call.1.2.1)[position]? = some input.1 := by
  rw [List.getElem?_map, isCall]
  rfl

omit [DecidableEq Thread] in
/-- If time does not run backwards, the clock of a measurement of an own entry has not either. -/
theorem Measured.start_le {thread : Thread} {m : Measurement}
    (measured : Measured handlers calls thread m) (own : m.stored < m.looked)
    (ordered : (calls.map fun call => call.1.2.1).Pairwise (· ≤ ·)) : m.start ≤ m.now := by
  rcases measured.loads with ⟨_, _, _, storedStart⟩
  have issuedFirst := storedStart.inside.1
  have lookedFirst := measured.ordered.1
  rcases storedStart with ⟨_, _, _, _, _, ⟨_, issuedAt⟩, _⟩
  rcases measured.readClock with ⟨_, readAt⟩
  rcases List.getElem?_eq_some_iff.mp (time_of_call issuedAt) with ⟨issuedInside, isStart⟩
  rcases List.getElem?_eq_some_iff.mp (time_of_call readAt) with ⟨readInside, isNow⟩
  dsimp only at isStart isNow
  rw [← isStart, ← isNow]
  exact List.pairwise_iff_getElem.mp ordered m.issued m.read issuedInside readInside (by omega)

/-- **Provenance.** In every schedule, and whichever cells the kernel takes for the entries, an
increment belongs to the difference of two clock readings: one by its own thread, a completion
handler, and one by an issue handler, which has stored it in the cell that the thread has found
under its key and has loaded from. If nobody writes to the key between the lookup and the load,
then the issue handler is one of the same packed key, whose entry nobody has written to before the
lookup either; and if the clock does not run backwards over the schedule, the difference is the
time between the two. -/
theorem increments_are_measured (handlers : Thread → Handler)
    (schedule : List (Thread × UInt64 × Cell)) (calls : List (PointerCall Thread))
    (final : PointerPool Thread)
    (ran : (Pool.step interpret).run (startPointers handlers) schedule = some (calls, final))
    (position : ℕ) (call : PointerCall Thread) (bucket : Fin histBuckets)
    (isCall : calls[position]? = some call) (isAdd : countedBucket call.2 = some bucket) :
    ∃ m, Measured handlers calls call.1.1 m ∧ m.loaded < position ∧
      bucket = latencyBucket (m.now - m.start) ∧
      (¬WrittenBetween calls m.key m.looked m.loaded →
        m.other = m.key ∧ m.stored < m.looked ∧ ¬WrittenBetween calls m.key m.stored m.looked ∧
        ((schedule.map fun label => label.2.1).Pairwise (· ≤ ·) →
          m.start ≤ m.now ∧ InBucket bucket ((m.now.toNat - m.start.toNat) / 1000))) := by
  rcases (attributed_run ran).increments position call bucket isCall isAdd with
    ⟨m, measured, before, isBucket⟩
  refine ⟨m, measured, before, isBucket, ?_⟩
  intro unwritten
  rcases measured.own unwritten with ⟨same, storedFirst, kept⟩
  refine ⟨same, storedFirst, kept, ?_⟩
  intro ordered
  have sameTimes : (calls.map fun call => call.1.2.1) = schedule.map fun label => label.2.1 := by
    rw [← Machine.map_fst_trace ran, List.map_map]
    rfl
  have inPast : m.start ≤ m.now := measured.start_le storedFirst (sameTimes ▸ ordered)
  exact ⟨inPast, (latencyBucket_sub_eq_iff inPast).mp isBucket.symm⟩

/-- Two completions overlap, and both load before either of them deletes the entry. -/
def loadsFirst (issuer first second : Thread) : List (Thread × UInt64 × Cell) :=
  [(issuer, 1000, 7), (issuer, 1001, 7), (first, 2000, 0), (second, 2000, 0), (first, 2001, 0),
    (second, 9003, 0), (first, 9003, 0), (second, 9004, 0), (first, 9005, 0), (second, 9005, 0),
    (first, 9006, 0), (second, 9006, 0)]

/-- The operations of the calls, in their order. -/
abbrev loadsFirstOperations (early late : Fin histBuckets) : List PointerOp :=
  [.ktimeGetNs, .startTimesUpdate (packKey 8 0) 1000, .startTimesLookup (packKey 8 0),
    .startTimesLookup (packKey 8 0), .ktimeGetNs, .ktimeGetNs, .load 7, .load 7,
    .startTimesDelete (packKey 8 0), .startTimesDelete (packKey 8 0), .fetchAndAdd early,
    .fetchAndAdd late]

omit [DecidableEq Thread] in
theorem not_writtenBetween_of_loadsFirst {early late : Fin histBuckets} {key : UInt64}
    {cell : Cell} {looked loaded : ℕ}
    (operations : calls.map (fun call => call.2.operation) = loadsFirstOperations early late)
    (lookedUp : (loadsFirstOperations early late)[looked]? = some (.startTimesLookup key))
    (loads : (loadsFirstOperations early late)[loaded]? = some (.load cell)) :
    ¬WrittenBetween calls key looked loaded := by
  rintro ⟨later, after, before, ⟨_, operation, answer⟩, isCall, writes⟩
  have isOperation : (loadsFirstOperations early late)[later]? = some operation := by
    rw [← operations, List.getElem?_map, isCall]
    rfl
  have fromLookup : 2 ≤ looked := by
    by_contra tooEarly
    interval_cases looked <;> simp at lookedUp
  have untilLoad : loaded ≤ 7 := by
    by_contra tooLate
    have inside := (List.getElem?_eq_some_iff.mp loads).1
    simp only [List.length_cons, List.length_nil] at inside
    interval_cases loaded <;> simp at loads
  have isBetween : 3 ≤ later ∧ later ≤ 6 := by omega
  rcases isBetween with ⟨lower, upper⟩
  interval_cases later <;> cases isOperation <;> exact writes

theorem increments_are_measured_of_loadsFirst : ∃ calls final call m,
    (Pool.step interpret).run (startPointers doubleCompletion) (loadsFirst 0 1 2) =
        some (calls, final) ∧
      calls[11]? = some call ∧ Measured doubleCompletion calls call.1.1 m ∧ m.other = m.key ∧
      m.start ≤ m.now ∧ InBucket 4 ((m.now.toNat - m.start.toNat) / 1000) := by
  have evaluated :
      ((Pool.step interpret).run (startPointers doubleCompletion) (loadsFirst 0 1 2)).map
        (fun result => result.1.map fun call => call.2.operation) =
      some (loadsFirstOperations 1 4) := by
    decide +kernel
  rcases Option.map_eq_some_iff.mp evaluated with ⟨⟨calls, final⟩, ran, operations⟩
  have operationAt : ∀ position : ℕ, (loadsFirstOperations 1 4)[position]? =
      calls[position]?.map fun call => call.2.operation := by
    intro position
    rw [← operations, List.getElem?_map]
  rcases Option.map_eq_some_iff.mp (operationAt 11).symm with ⟨call, isCall, isAdd⟩
  rcases increments_are_measured doubleCompletion _ calls final ran 11 call 4 isCall
    (countedBucket_eq_some_iff.mpr isAdd) with ⟨m, measured, _, _, whenUnwritten⟩
  rcases measured.loads with ⟨cell, ⟨_, lookedUp⟩, ⟨_, loaded⟩, _⟩
  have unwritten := not_writtenBetween_of_loadsFirst operations
    (by rw [operationAt, lookedUp]; rfl) (by rw [operationAt, loaded]; rfl)
  rcases whenUnwritten unwritten with ⟨same, _, _, whenOrdered⟩
  rcases whenOrdered (by decide) with ⟨inPast, inBucket⟩
  exact ⟨calls, final, call, m, ran, isCall, measured, same, inPast, inBucket⟩

/-- Another completion deletes the entry, and its memory is taken for another request: the first
completion loads a start time that is later than its own clock reading. -/
example : ((Pool.step interpret).run
    (startPointers fun
      | (0 : Fin 4) => .issue ⟨8, 0⟩
      | 1 => .complete ⟨8, 0⟩
      | 2 => .complete ⟨8, 0⟩
      | 3 => .issue ⟨8, 64⟩)
    [(0, 1000, 7), (0, 1001, 7), (1, 2000, 0), (1, 2001, 0), (2, 2000, 0), (2, 2001, 0),
      (2, 2002, 0), (2, 2003, 0), (3, 3000, 7), (3, 3001, 7), (1, 4000, 0), (1, 4001, 0),
      (1, 4002, 0)]).map (fun result => result.2.shared.ioLatencyHist 23) = some 1 := by
  decide +kernel

end Schedules

end Sysmon.Ebpf
