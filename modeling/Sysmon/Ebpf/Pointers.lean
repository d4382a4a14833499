import Mathlib.Data.Fintype.Basic
import Sysmon.Ebpf.Handlers

/-!
# Pointers into `start_times`

A lookup in `start_times` answers a pointer, and `trace_rq_complete` reads what
it points to only after it has read the clock. In the meantime the entry may be
replaced or deleted, and its memory may be taken for another one. This file has
the handlers once more with the lookup and the load as separate steps.

Which memory an update takes is decided by the kernel: a step is given a cell,
and the update fails if the cell belongs to an entry of another key, as it may
for want of memory.

As long as nothing is stored in a cell that a handler is about to load from,
the handlers do what those of `Sysmon.Ebpf.BlockLatency` do, whose lookup
answers the value itself.
-/

namespace Sysmon.Ebpf

/-- The memory of the value of an entry. -/
abbrev Cell := ℕ

/-- The helper calls of the handlers, and the load through a pointer. -/
inductive PointerOp where
  | ktimeGetNs
  | startTimesLookup (key : UInt64)
  | load (start : Cell)
  | startTimesUpdate (key value : UInt64)
  | startTimesDelete (key : UInt64)
  | fetchAndAdd (count : Fin histBuckets)
deriving DecidableEq

/-- An update answers where it has stored the value, which the handlers do not look at. -/
@[reducible]
def PointerOp.Answer : PointerOp → Type
  | ktimeGetNs => UInt64
  | startTimesLookup _ => Option Cell
  | load _ => UInt64
  | startTimesUpdate _ _ => Option Cell
  | startTimesDelete _ => Bool
  | fetchAndAdd _ => Unit

/-- The helper call, if the operation is not a load. -/
def PointerOp.helper : PointerOp → Option BpfOp
  | ktimeGetNs => some .ktimeGetNs
  | startTimesLookup key => some (.startTimesLookup key)
  | load _ => none
  | startTimesUpdate key value => some (.startTimesUpdate key value)
  | startTimesDelete key => some (.startTimesDelete key)
  | fetchAndAdd count => some (.fetchAndAdd count)

abbrev PointerProgram := Program PointerOp.Answer

structure PointerState where
  startTimes : BoundedMap UInt64 Cell startTimesMaxEntries
  memory : Cell → UInt64
  ioLatencyHist : Fin histBuckets → UInt64

namespace PointerState

def loaded : PointerState where
  startTimes := .empty
  memory := fun _ => 0
  ioLatencyHist := fun _ => 0

/-- No entry of another key is in the cell. -/
def Free (state : PointerState) (key : UInt64) (cell : Cell) : Prop :=
  ∀ other ∈ state.startTimes.keys, state.startTimes.lookup other = some cell → other = key

-- Only the keys of the table are tried, not every `UInt64`.
instance (state : PointerState) (key : UInt64) (cell : Cell) : Decidable (state.Free key cell) :=
  Finset.decidableDforallFinset

/-- The update is carried out in the cell. -/
def Stores (state : PointerState) (key : UInt64) (cell : Cell) : Prop :=
  state.startTimes.Accepts key ∧ state.Free key cell

instance (state : PointerState) (key : UInt64) (cell : Cell) : Decidable (state.Stores key cell) :=
  inferInstanceAs (Decidable (_ ∧ _))

/-- What an operation does when the clock shows the time and the kernel offers the cell. -/
def interpret (input : UInt64 × Cell) :
    (operation : PointerOp) → PointerState → operation.Answer × PointerState
  | .ktimeGetNs, state => (input.1, state)
  | .startTimesLookup key, state => (state.startTimes.lookup key, state)
  | .load start, state => (state.memory start, state)
  | .startTimesUpdate key value, state =>
    if state.Stores key input.2 then
      (some input.2,
        { state with
          startTimes := state.startTimes.update key input.2
          memory := Function.update state.memory input.2 value })
    else (none, state)
  | .startTimesDelete key, state =>
    (decide (key ∈ state.startTimes.keys),
      { state with startTimes := state.startTimes.delete key })
  | .fetchAndAdd count, state =>
    ((), { state with
      ioLatencyHist := Function.update state.ioLatencyHist count (state.ioLatencyHist count + 1) })

variable {state : PointerState} {key : UInt64} {input : UInt64 × Cell}

theorem interpret_update_of_stores (stores : state.Stores key input.2) (value : UInt64) :
    interpret input (.startTimesUpdate key value) state =
      (some input.2,
        { state with
          startTimes := state.startTimes.update key input.2
          memory := Function.update state.memory input.2 value }) :=
  if_pos stores

theorem interpret_update_of_not_stores (refuses : ¬state.Stores key input.2) (value : UInt64) :
    interpret input (.startTimesUpdate key value) state = (none, state) :=
  if_neg refuses

end PointerState

namespace Pointers

def traceRqIssue (ctx : BlockRq) : PointerProgram Unit := do
  let ts ← .perform PointerOp.ktimeGetNs
  let key := packKey ctx.dev ctx.sector
  let _ ← .perform (PointerOp.startTimesUpdate key ts)
  return ()

def traceRqComplete (ctx : BlockRq) : PointerProgram Unit := do
  let key := packKey ctx.dev ctx.sector
  match ← (.perform (PointerOp.startTimesLookup key) : PointerProgram (Option Cell)) with
  | none => return () -- no matching issue event (started before we attached)
  | some start =>
    let now : UInt64 ← .perform PointerOp.ktimeGetNs
    let deltaNs := now - (← .perform (PointerOp.load start) : UInt64)
    let _ ← .perform (PointerOp.startTimesDelete key)
    let deltaUs := deltaNs / 1000
    let bucket := bucketFor deltaUs
    match histLookup bucket with
    | none => return ()
    | some count => .perform (PointerOp.fetchAndAdd count)

/-- The operations of `traceRqComplete` after the start time was loaded. -/
def completeWith (key now start : UInt64) : PointerProgram Unit :=
  .call (.startTimesDelete key) fun _ =>
    .call (.fetchAndAdd (latencyBucket (now - start))) .done

/-- The operations after the lookup. -/
def completeAfter (key : UInt64) : Option Cell → PointerProgram Unit
  | none => .done ()
  | some start => .call .ktimeGetNs fun (now : UInt64) => .call (.load start) (completeWith key now)

theorem traceRqIssue_eq (ctx : BlockRq) :
    traceRqIssue ctx =
      .call .ktimeGetNs fun (ts : UInt64) =>
        .call (.startTimesUpdate (packKey ctx.dev ctx.sector) ts) fun _ => .done () :=
  rfl

theorem traceRqComplete_eq (ctx : BlockRq) :
    traceRqComplete ctx =
      .call (.startTimesLookup (packKey ctx.dev ctx.sector))
        (completeAfter (packKey ctx.dev ctx.sector)) := by
  change Program.call _ _ = Program.call _ _
  congr 1
  funext found
  cases found with
  | none => rfl
  | some start =>
      change Program.call _ _ = Program.call _ _
      congr 1
      funext now
      change Program.call _ _ = Program.call _ _
      congr 1
      funext value
      change Program.call _ _ = Program.call _ _
      congr 1
      funext deleted
      change (match histLookup _ with | none => _ | some count => _) = _
      rw [histLookup_bucketFor]
      rfl

end Pointers

def Handler.pointerProgram : Handler → PointerProgram Unit
  | issue ctx => Pointers.traceRqIssue ctx
  | complete ctx => Pointers.traceRqComplete ctx

abbrev PointerPool (Thread : Type*) := Pool Thread PointerOp.Answer Unit PointerState

/-- A step of a thread, at a time and with the cell that the kernel offers, with its answer. -/
abbrev PointerCall (Thread : Type*) := (Thread × UInt64 × Cell) × Performed PointerOp.Answer

/-- All handlers are about to start on freshly loaded maps. -/
def startPointers {Thread : Type*} (handlers : Thread → Handler) : PointerPool Thread where
  programs thread := (handlers thread).pointerProgram
  shared := .loaded

/-! ## Undisturbed pointers -/

namespace Pointers

/-- The maps without the memory. -/
structure Abstracts (state : PointerState) (kernel : KernelState) : Prop where
  startTimes : ∀ key,
    kernel.startTimes.lookup key = (state.startTimes.lookup key).map state.memory
  ioLatencyHist : kernel.ioLatencyHist = state.ioLatencyHist

/-- The cell that the next operation loads from. -/
def loadsNow : PointerProgram Unit → Option Cell
  | .call (.load cell) _ => some cell
  | _ => none

/-- The cell that the program is going to load from, now or once it has read the clock. -/
def target : PointerProgram Unit → Option Cell
  | .call .ktimeGetNs following => loadsNow (following (0 : UInt64))
  | program => loadsNow program

/-- Points in the code of a handler, with and without pointers. -/
inductive Follows (memory : Cell → UInt64) : PointerProgram Unit → BpfProgram Unit → Prop
  | issue (key : UInt64) :
    Follows memory
      (.call .ktimeGetNs fun (ts : UInt64) => .call (.startTimesUpdate key ts) fun _ => .done ())
      (.call .ktimeGetNs fun (ts : UInt64) => .call (.startTimesUpdate key ts) fun _ => .done ())
  | update (key ts : UInt64) :
    Follows memory (.call (.startTimesUpdate key ts) fun _ => .done ())
      (.call (.startTimesUpdate key ts) fun _ => .done ())
  | complete (key : UInt64) :
    Follows memory (.call (.startTimesLookup key) (completeAfter key))
      (.call (.startTimesLookup key) (Ebpf.completeAfter key))
  | clock (key : UInt64) (cell : Cell) :
    Follows memory (completeAfter key (some cell)) (completeFrom key (memory cell))
  | load (key now : UInt64) (cell : Cell) :
    Follows memory (.call (.load cell) (completeWith key now))
      (.call (.startTimesDelete key) fun _ =>
        .call (.fetchAndAdd (latencyBucket (now - memory cell))) .done)
  | delete (key : UInt64) (bucket : Fin histBuckets) :
    Follows memory (.call (.startTimesDelete key) fun _ => .call (.fetchAndAdd bucket) .done)
      (.call (.startTimesDelete key) fun _ => .call (.fetchAndAdd bucket) .done)
  | add (bucket : Fin histBuckets) :
    Follows memory (.call (.fetchAndAdd bucket) .done) (.call (.fetchAndAdd bucket) .done)
  | finished : Follows memory (.done ()) (.done ())

variable {Thread : Type*} {memory later : Cell → UInt64} {state : PointerState}
  {kernel : KernelState} {program : PointerProgram Unit} {image : BpfProgram Unit}

theorem follows_program (memory : Cell → UInt64) (handler : Handler) :
    Follows memory handler.pointerProgram handler.program := by
  cases handler with
  | issue ctx =>
      rw [Handler.pointerProgram, Handler.program, traceRqIssue_eq, Ebpf.traceRqIssue_eq]
      exact .issue _
  | complete ctx =>
      rw [Handler.pointerProgram, Handler.program, traceRqComplete_eq, Ebpf.traceRqComplete_eq]
      exact .complete _

theorem Follows.congr (follows : Follows memory program image)
    (same : ∀ cell, target program = some cell → later cell = memory cell) :
    Follows later program image := by
  cases follows with
  | issue key => exact .issue key
  | update key ts => exact .update key ts
  | complete key => exact .complete key
  | clock key cell =>
      rw [← same cell rfl]
      exact .clock key cell
  | load key now cell =>
      rw [← same cell rfl]
      exact .load key now cell
  | delete key bucket => exact .delete key bucket
  | add bucket => exact .add bucket
  | finished => exact .finished

theorem Abstracts.keys_eq (abstracts : Abstracts state kernel) :
    kernel.startTimes.keys = state.startTimes.keys := by
  ext key
  rw [BoundedMap.mem_keys, BoundedMap.mem_keys, abstracts.startTimes, Option.isSome_map]

theorem Abstracts.accepts_iff (abstracts : Abstracts state kernel) (key : UInt64) :
    kernel.startTimes.Accepts key ↔ state.startTimes.Accepts key := by
  rw [BoundedMap.Accepts, BoundedMap.Accepts, BoundedMap.size, BoundedMap.size, abstracts.keys_eq]

/-- An update that is carried out in a cell of its own is an update of the map. -/
theorem Abstracts.update (abstracts : Abstracts state kernel) {key : UInt64} {cell : Cell}
    (stores : state.Stores key cell) (value : UInt64) :
    Abstracts
      { state with
        startTimes := state.startTimes.update key cell
        memory := Function.update state.memory cell value }
      { kernel with startTimes := kernel.startTimes.update key value } where
  startTimes := by
    intro other
    simp only [BoundedMap.lookup_update, abstracts.accepts_iff key, stores.1, and_true]
    split
    · simp
    · rename_i different
      rw [abstracts.startTimes]
      cases entry : state.startTimes.lookup other with
      | none => rfl
      | some foreign =>
          have notCell : foreign ≠ cell := by
            rintro rfl
            exact different (stores.2 other (by simp [entry]) entry)
          simp [notCell]
  ioLatencyHist := abstracts.ioLatencyHist

theorem Abstracts.delete (abstracts : Abstracts state kernel) (key : UInt64) :
    Abstracts { state with startTimes := state.startTimes.delete key }
      { kernel with startTimes := kernel.startTimes.delete key } where
  startTimes := by
    intro other
    simp only [BoundedMap.lookup_delete]
    split
    · rfl
    · exact abstracts.startTimes other
  ioLatencyHist := abstracts.ioLatencyHist

section Simulation

variable [DecidableEq Thread] {pool next : PointerPool Thread} {other : HandlerPool Thread}
  {label : Thread × UInt64 × Cell} {performed : Performed PointerOp.Answer}

structure Simulates (pool : PointerPool Thread) (other : HandlerPool Thread) : Prop where
  maps : Abstracts pool.shared other.shared
  programs : ∀ thread,
    Follows pool.shared.memory (pool.programs thread) (other.programs thread)

/-- An update gets a cell that no other entry is in, and that no handler is going to load from. -/
def Undisturbed (pool : PointerPool Thread) (label : Thread × UInt64 × Cell) : Prop :=
  match pool.programs label.1 with
  | .call (.startTimesUpdate key _) _ =>
    pool.shared.Free key label.2.2 ∧ ∀ thread, target (pool.programs thread) ≠ some label.2.2
  | _ => True

theorem Simulates.advance (simulates : Simulates pool other) (thread : Thread)
    (maps : Abstracts state kernel) (own : Follows state.memory program image)
    (same : ∀ thread cell, target (pool.programs thread) = some cell →
      state.memory cell = pool.shared.memory cell) :
    Simulates { programs := Function.update pool.programs thread program, shared := state }
      { programs := Function.update other.programs thread image, shared := kernel } where
  maps := maps
  programs := by
    intro another
    by_cases isThread : another = thread
    · subst isThread
      simpa using own
    · simpa [Function.update_of_ne isThread] using
        (simulates.programs another).congr (same another)

/-- A step is one of the handlers without pointers, or a load. -/
theorem Simulates.step (simulates : Simulates pool other) (undisturbed : Undisturbed pool label)
    (stepped : Pool.step PointerState.interpret pool label = some (performed, next)) :
    performed.operation.helper = none ∧ Simulates next other ∨
      ∃ answered following,
        Pool.step KernelState.interpret other (label.1, label.2.1) = some (answered, following) ∧
          performed.operation.helper = some answered.operation ∧ Simulates next following := by
  rcases Pool.step_eq_some.mp stepped with ⟨operation, rest, isCall, rfl, rfl⟩
  have follows := simulates.programs label.1
  rw [isCall] at follows
  have unchanged : ∀ thread cell, target (pool.programs thread) = some cell →
      pool.shared.memory cell = pool.shared.memory cell := fun _ _ _ => rfl
  generalize isImage : other.programs label.1 = image at follows
  cases follows with
  | issue key =>
      right
      exact ⟨_, _, Pool.step_of_call isImage, rfl,
        simulates.advance _ simulates.maps (.update key label.2.1) unchanged⟩
  | update key ts =>
      right
      simp only [Undisturbed, isCall] at undisturbed
      rcases undisturbed with ⟨free, unused⟩
      refine ⟨_, _, Pool.step_of_call isImage, rfl, ?_⟩
      by_cases accepts : pool.shared.startTimes.Accepts key
      · have stores : pool.shared.Stores key label.2.2 := ⟨accepts, free⟩
        rw [PointerState.interpret_update_of_stores stores]
        apply simulates.advance _ (simulates.maps.update stores ts) .finished
        intro thread cell isTarget
        apply Function.update_of_ne
        rintro rfl
        exact unused thread isTarget
      · have rejects := mt (simulates.maps.accepts_iff key).mp accepts
        have refuses : ¬pool.shared.Stores key label.2.2 := fun stores => accepts stores.1
        simp only [PointerState.interpret_update_of_not_stores refuses, KernelState.interpret,
          BoundedMap.update_of_not_accepts rejects]
        exact simulates.advance _ simulates.maps .finished unchanged
  | complete key =>
      right
      refine ⟨_, _, Pool.step_of_call isImage, rfl, ?_⟩
      simp only [PointerState.interpret, KernelState.interpret, simulates.maps.startTimes key]
      cases pool.shared.startTimes.lookup key with
      | none => exact simulates.advance _ simulates.maps .finished unchanged
      | some cell => exact simulates.advance _ simulates.maps (.clock key cell) unchanged
  | clock key cell =>
      right
      exact ⟨_, _, Pool.step_of_call isImage, rfl,
        simulates.advance _ simulates.maps (.load key label.2.1 cell) unchanged⟩
  | load key now cell =>
      left
      refine ⟨rfl, ?_⟩
      have advanced := simulates.advance label.1 simulates.maps
        (.delete key (latencyBucket (now - pool.shared.memory cell))) unchanged
      rw [← isImage, Function.update_eq_self] at advanced
      exact advanced
  | delete key bucket =>
      right
      exact ⟨_, _, Pool.step_of_call isImage, rfl,
        simulates.advance _ (simulates.maps.delete key) (.add bucket) unchanged⟩
  | add bucket =>
      right
      refine ⟨_, _, Pool.step_of_call isImage, rfl, simulates.advance _ ?_ .finished unchanged⟩
      exact ⟨simulates.maps.startTimes, congrArg (fun hist =>
        Function.update hist bucket (hist bucket + 1)) simulates.maps.ioLatencyHist⟩

/-- All steps of the schedule are undisturbed. -/
def UndisturbedRun (pool : PointerPool Thread) : List (Thread × UInt64 × Cell) → Prop
  | [] => True
  | label :: schedule =>
    Undisturbed pool label ∧
      ∀ stepped ∈ Pool.step PointerState.interpret pool label, UndisturbedRun stepped.2 schedule

instance [Fintype Thread] (pool : PointerPool Thread) (label : Thread × UInt64 × Cell) :
    Decidable (Undisturbed pool label) := by
  unfold Undisturbed
  split <;> infer_instance

instance decidableUndisturbedRun [Fintype Thread] (pool : PointerPool Thread) :
    (schedule : List (Thread × UInt64 × Cell)) → Decidable (UndisturbedRun pool schedule)
  | [] => isTrue trivial
  | label :: schedule =>
    have := fun stepped : Performed PointerOp.Answer × PointerPool Thread =>
      decidableUndisturbedRun stepped.2 schedule
    inferInstanceAs (Decidable (Undisturbed pool label ∧
      ∀ stepped ∈ Pool.step PointerState.interpret pool label, UndisturbedRun stepped.2 schedule))

/-- The helper calls with their threads and times. -/
def helperCalls (calls : List (PointerCall Thread)) : List ((Thread × UInt64) × BpfOp) :=
  calls.filterMap fun call =>
    call.2.operation.helper.map fun operation => ((call.1.1, call.1.2.1), operation)

theorem Simulates.run {schedule : List (Thread × UInt64 × Cell)}
    {calls : List (PointerCall Thread)} (simulates : Simulates pool other)
    (undisturbed : UndisturbedRun pool schedule)
    (ran : (Pool.step PointerState.interpret).run pool schedule = some (calls, next)) :
    ∃ answered following,
      (Pool.step KernelState.interpret).run other ((helperCalls calls).map Prod.fst) =
        some (answered, following) ∧
      answered.map (fun call => (call.1, call.2.operation)) = helperCalls calls ∧
      Simulates next following := by
  induction schedule generalizing pool other calls with
  | nil =>
      rcases Machine.run_nil_eq_some.mp ran with ⟨rfl, rfl⟩
      exact ⟨[], other, rfl, rfl, simulates⟩
  | cons label schedule ih =>
      rcases Machine.run_cons_eq_some.mp ran with ⟨performed, middle, rest, stepped, ranRest, rfl⟩
      rcases simulates.step undisturbed.1 stepped with
        ⟨isLoad, still⟩ | ⟨answer, after, answered, isHelper, still⟩
      · have sameCalls : helperCalls ((label, performed) :: rest) = helperCalls rest := by
          simp [helperCalls, isLoad]
        rw [sameCalls]
        exact ih still (undisturbed.2 _ stepped) ranRest
      · have calledNow : helperCalls ((label, performed) :: rest) =
            ((label.1, label.2.1), answer.operation) :: helperCalls rest := by
          simp [helperCalls, isHelper]
        rcases ih still (undisturbed.2 _ stepped) ranRest with
          ⟨others, following, ranOthers, sameCalls, last⟩
        refine ⟨((label.1, label.2.1), answer) :: others, following, ?_, ?_, last⟩
        · rw [calledNow, List.map_cons]
          exact Machine.run_cons_eq_some.mpr ⟨answer, after, others, answered, ranOthers, rfl⟩
        · rw [calledNow, List.map_cons, sameCalls]

/-- **Pointers.** As long as nothing is stored in a cell that a handler is going to load from, a
run of the handlers is a run of those whose lookup answers the value: the same threads make the
same helper calls in the same order and at the same times, and they leave the same maps. -/
theorem maps_of_undisturbed (handlers : Thread → Handler)
    {schedule : List (Thread × UInt64 × Cell)} {calls : List (PointerCall Thread)}
    {final : PointerPool Thread}
    (undisturbed : UndisturbedRun (startPointers handlers) schedule)
    (ran : (Pool.step PointerState.interpret).run (startPointers handlers) schedule =
      some (calls, final)) :
    ∃ answered following,
      (Pool.step KernelState.interpret).run (startHandlers handlers)
        ((helperCalls calls).map Prod.fst) = some (answered, following) ∧
      answered.map (fun call => (call.1, call.2.operation)) = helperCalls calls ∧
      Abstracts final.shared following.shared := by
  have simulates : Simulates (startPointers handlers) (startHandlers handlers) :=
    ⟨⟨fun key => rfl, rfl⟩, fun thread => follows_program _ (handlers thread)⟩
  rcases simulates.run undisturbed ran with ⟨answered, following, ranOthers, sameCalls, last⟩
  exact ⟨answered, following, ranOthers, sameCalls, last.maps⟩

def issueThenComplete : Fin 2 → Handler
  | 0 => .issue ⟨8, 0⟩
  | 1 => .complete ⟨8, 0⟩

theorem maps_of_undisturbed_pair : ∃ calls final answered following,
    (Pool.step PointerState.interpret).run (startPointers issueThenComplete)
        [(0, 1000, 7), (0, 1001, 7), (1, 2000, 0), (1, 9000, 0), (1, 9001, 0), (1, 9002, 0),
          (1, 9003, 0)] = some (calls, final) ∧
      (Pool.step KernelState.interpret).run (startHandlers issueThenComplete)
        ((helperCalls calls).map Prod.fst) = some (answered, following) ∧
      Abstracts final.shared following.shared := by
  have evaluated : ((Pool.step PointerState.interpret).run (startPointers issueThenComplete)
      [(0, 1000, 7), (0, 1001, 7), (1, 2000, 0), (1, 9000, 0), (1, 9001, 0), (1, 9002, 0),
        (1, 9003, 0)]).isSome := by
    decide +kernel
  rcases Option.isSome_iff_exists.mp evaluated with ⟨⟨calls, final⟩, ran⟩
  rcases maps_of_undisturbed issueThenComplete (by decide +kernel) ran with
    ⟨answered, following, ranOthers, _, abstracts⟩
  exact ⟨calls, final, answered, following, ran, ranOthers, abstracts⟩

end Simulation

end Pointers

end Sysmon.Ebpf
