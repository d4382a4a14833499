import Sysmon.Ebpf.Handlers

/-!
# Serialisation of handlers

Handlers on different packed keys may overlap in any way: the maps they leave
are those of running the handlers one after the other, each with the clock
value it has read. What has to be kept is the order of the handlers on each
key, which must not overlap among themselves, and all keys in use must fit
into `start_times`.

The proof moves the helper calls of each handler together, past those of
handlers on other keys, and then replaces each block by the uninterrupted
handler.
-/

namespace Sysmon.Ebpf

open KernelState

variable {Thread : Type*} [DecidableEq Thread] {handlers : Thread → Handler}

def readClock : Performed BpfOp.Answer → Option UInt64
  | ⟨.ktimeGetNs, now⟩ => some now
  | _ => none

def clockRead (trace : List (HandlerCall Thread)) (thread : Thread) : UInt64 :=
  ((trace.filter fun call => call.1.1 = thread).findSome? fun call => readClock call.2).getD 0

def StaysOn (key : UInt64) (operation : BpfOp) : Prop :=
  ∀ other ∈ operation.key, other = key

/-- Every thread stays on the key of its handler, and so do the entries on the keys in use. -/
structure OwnKeys (handlers : Thread → Handler) (used : Finset UInt64)
    (pool : HandlerPool Thread) : Prop where
  programs : ∀ thread, (pool.programs thread).Calls (StaysOn (handlers thread).key)
  entries : pool.shared.startTimes.keys ⊆ used

theorem Handler.calls_program (handler : Handler) :
    handler.program.Calls (StaysOn handler.key) := by
  cases handler with
  | issue ctx =>
      rw [program, traceRqIssue_eq]
      simp [Program.Calls, StaysOn, BpfOp.key, key, Handler.ctx]
  | complete ctx =>
      rw [program, traceRqComplete_eq]
      refine ⟨by simp [StaysOn, BpfOp.key, key, Handler.ctx], fun found => ?_⟩
      cases found with
      | none => trivial
      | some start =>
          simp [completeAfter, completeFrom, Program.Calls, StaysOn, BpfOp.key, key, Handler.ctx]

omit [DecidableEq Thread] in
theorem ownKeys_start (handlers : Thread → Handler) (used : Finset UInt64) :
    OwnKeys handlers used (startHandlers handlers) where
  programs thread := (handlers thread).calls_program
  entries := by simp [startHandlers]

theorem OwnKeys.step {used : Finset UInt64} {pool next : HandlerPool Thread}
    {label : Thread × UInt64} {performed : Performed BpfOp.Answer}
    (ownKeys : OwnKeys handlers used pool) (isUsed : (handlers label.1).key ∈ used)
    (stepped : Pool.step interpret pool label = some (performed, next)) :
    OwnKeys handlers used next := by
  rcases Pool.step_eq_some.mp stepped with ⟨operation, following, program, rfl, rfl⟩
  have calls := ownKeys.programs label.1
  rw [program] at calls
  constructor
  · intro thread
    by_cases same : thread = label.1
    · subst same
      simpa using calls.2 _
    · simpa [Function.update_of_ne same] using ownKeys.programs thread
  · apply keys_interpret_subset label.2 ownKeys.entries
    intro key isKey
    rw [calls.1 key isKey]
    exact isUsed

theorem handlers_commute {used : Finset UInt64} (fits : used.card ≤ startTimesMaxEntries) :
    (Pool.step interpret).CommutesAcross (fun label => (handlers label.1).key)
      (OwnKeys handlers used) (fun label => (handlers label.1).key ∈ used) := by
  intro pool first second firstCall secondCall middle final ownKeys firstUsed secondUsed different
    firstStep secondStep
  apply Pool.step_exchange _ _ firstStep secondStep
  · intro same
    exact different (congrArg (fun thread => (handlers thread).key) same)
  · intro firstOperation secondOperation firstNext secondNext firstProgram secondProgram
    have firstStays := (firstProgram ▸ ownKeys.programs first.1 :).1
    have secondStays := (secondProgram ▸ ownKeys.programs second.1 :).1
    apply exchangeable first.2 second.2 fits ownKeys.entries
    · intro key isKey
      rw [firstStays key isKey]
      exact firstUsed
    · intro key isKey
      rw [secondStays key isKey]
      exact secondUsed
    · intro key isFirst isSecond
      exact different ((firstStays key isFirst).symm.trans (secondStays key isSecond))

/-! ## One handler alone -/

/-- A handler that runs alone is the uninterrupted handler at the clock value it reads. -/
theorem shared_of_solo {pool final : HandlerPool Thread} {thread : Thread} {result : Unit}
    {schedule : List (Thread × UInt64)} {trace : List (HandlerCall Thread)}
    (own : ∀ label ∈ schedule, label.1 = thread)
    (fresh : pool.programs thread = (handlers thread).program)
    (finished : final.programs thread = .done result)
    (ran : (Pool.step interpret).run pool schedule = some (trace, final)) :
    final.shared = pool.shared.handle ((handlers thread).event (clockRead trace thread)) := by
  cases handler : handlers thread with
  | issue ctx =>
      rw [handler, Handler.program, traceRqIssue_eq] at fresh
      rcases Pool.run_solo_call own fresh finished ran with ⟨ts, _, _, ownUpdate, rfl, ranUpdate⟩
      rcases Pool.run_solo_call ownUpdate (Function.update_self ..) finished ranUpdate with
        ⟨_, _, _, ownRest, rfl, ranRest⟩
      rcases Pool.run_solo_done ownRest (Function.update_self ..) ranRest with ⟨rfl, rfl⟩
      simp [clockRead, readClock, Handler.event, KernelState.handle_issue, interpret]
  | complete ctx =>
      rw [handler, Handler.program, traceRqComplete_eq] at fresh
      rcases Pool.run_solo_call own fresh finished ran with ⟨_, _, _, ownRest, rfl, ranRest⟩
      cases found : pool.shared.startTimes.lookup (packKey ctx.dev ctx.sector) with
      | none =>
          simp only [interpret, found, completeAfter] at ranRest
          rcases Pool.run_solo_done ownRest (Function.update_self ..) ranRest with ⟨rfl, rfl⟩
          simp only [Handler.event, KernelState.handle_complete_of_none _ found]
      | some start =>
          simp only [interpret, found, completeAfter, completeFrom] at ranRest
          rcases Pool.run_solo_call ownRest (Function.update_self ..) finished ranRest with
            ⟨now, _, _, ownDelete, rfl, ranDelete⟩
          rcases Pool.run_solo_call ownDelete (Function.update_self ..) finished ranDelete with
            ⟨_, _, _, ownAdd, rfl, ranAdd⟩
          rcases Pool.run_solo_call ownAdd (Function.update_self ..) finished ranAdd with
            ⟨_, _, _, ownDone, rfl, ranDone⟩
          rcases Pool.run_solo_done ownDone (Function.update_self ..) ranDone with ⟨rfl, rfl⟩
          simp [clockRead, readClock, Handler.event, KernelState.handle_complete_of_some _ found,
            interpret]

/-! ## One handler after the other -/

theorem clockRead_append_left {before after : List (HandlerCall Thread)} {thread : Thread}
    (foreign : ∀ call ∈ after, call.1.1 ≠ thread) :
    clockRead (before ++ after) thread = clockRead before thread := by
  have noCalls : after.filter (fun call => call.1.1 = thread) = [] := by
    simpa only [List.filter_eq_nil_iff, decide_eq_true_eq] using foreign
  rw [clockRead, clockRead, List.filter_append, noCalls, List.append_nil]

theorem clockRead_append_right {before after : List (HandlerCall Thread)} {thread : Thread}
    (foreign : ∀ call ∈ before, call.1.1 ≠ thread) :
    clockRead (before ++ after) thread = clockRead after thread := by
  have noCalls : before.filter (fun call => call.1.1 = thread) = [] := by
    simpa only [List.filter_eq_nil_iff, decide_eq_true_eq] using foreign
  rw [clockRead, clockRead, List.filter_append, noCalls, List.nil_append]

theorem shared_of_serial {order : List Thread} {pool final : HandlerPool Thread}
    {trace : List (HandlerCall Thread)} (blocks : Thread → List (Thread × UInt64))
    (own : ∀ thread, ∀ label ∈ blocks thread, label.1 = thread) (nodup : order.Nodup)
    (fresh : ∀ thread ∈ order, pool.programs thread = (handlers thread).program)
    (finished : ∀ thread ∈ order, ∃ result, final.programs thread = .done result)
    (ran : (Pool.step interpret).run pool (order.flatMap blocks) = some (trace, final)) :
    final.shared = order.foldl (fun kernel thread =>
      kernel.handle ((handlers thread).event (clockRead trace thread))) pool.shared := by
  induction order generalizing pool trace with
  | nil =>
      rw [(Machine.run_nil_eq_some.mp ran).2, List.foldl_nil]
  | cons thread order ih =>
      rcases List.nodup_cons.mp nodup with ⟨notLater, nodupRest⟩
      rw [List.flatMap_cons] at ran
      rcases Machine.run_append_eq_some.mp ran with ⟨middle, before, after, ranBlock, ranRest, rfl⟩
      have laterLabels : ∀ label ∈ order.flatMap blocks, label.1 ∈ order := by
        intro label present
        rcases List.mem_flatMap.mp present with ⟨later, isLater, inBlock⟩
        rw [own later label inBlock]
        exact isLater
      have beforeCalls : ∀ call ∈ before, call.1.1 = thread := by
        intro call present
        apply own thread
        rw [← Machine.map_fst_trace ranBlock]
        exact List.mem_map_of_mem present
      have afterCalls : ∀ call ∈ after, call.1.1 ∈ order := by
        intro call present
        apply laterLabels
        rw [← Machine.map_fst_trace ranRest]
        exact List.mem_map_of_mem present
      have block : middle.shared =
          pool.shared.handle ((handlers thread).event (clockRead (before ++ after) thread)) := by
        rcases finished thread List.mem_cons_self with ⟨result, isDone⟩
        have foreign : ∀ call ∈ after, call.1.1 ≠ thread := by
          intro call present same
          exact notLater (same ▸ afterCalls call present)
        rw [clockRead_append_left foreign]
        apply shared_of_solo (own thread) (fresh thread List.mem_cons_self) _ ranBlock
        · exact result
        · rw [← Pool.programs_of_not_scheduled _ ranRest]
          · exact isDone
          · intro label present same
            exact notLater (same ▸ laterLabels label present)
      have freshRest : ∀ later ∈ order, middle.programs later = (handlers later).program := by
        intro later isLater
        rw [Pool.programs_of_not_scheduled _ ranBlock]
        · exact fresh later (List.mem_cons_of_mem thread isLater)
        · intro label present same
          rw [own thread label present] at same
          exact notLater (same ▸ isLater)
      have finishedRest : ∀ later ∈ order, ∃ result, final.programs later = .done result := by
        intro later isLater
        exact finished later (List.mem_cons_of_mem thread isLater)
      rw [ih nodupRest freshRest finishedRest ranRest, List.foldl_cons, block]
      apply List.foldl_ext
      intro kernel later isLater
      rw [clockRead_append_right]
      intro call present same
      rw [beforeCalls call present] at same
      exact notLater (same ▸ isLater)

theorem clockRead_congr {trace other : List (HandlerCall Thread)} {thread : Thread}
    (same : trace.filter (fun call => (handlers call.1.1).key = (handlers thread).key) =
      other.filter fun call => (handlers call.1.1).key = (handlers thread).key) :
    clockRead trace thread = clockRead other thread := by
  have narrow : ∀ calls : List (HandlerCall Thread),
      calls.filter (fun call => call.1.1 = thread) =
        (calls.filter fun call => (handlers call.1.1).key = (handlers thread).key).filter
          fun call => call.1.1 = thread := by
    intro calls
    rw [List.filter_filter]
    apply List.filter_congr
    intro call _
    by_cases own : call.1.1 = thread
    · simp [own]
    · simp [own]
  rw [clockRead, clockRead, narrow trace, narrow other, same]

/-- Handlers on different keys are serialisable: if handlers on one key do not overlap and all
keys fit into `start_times`, then any schedule leaves the maps that the handlers leave one after
the other, in every order that keeps the order on each key. -/
theorem handlers_serialisable (handlers : Thread → Handler) (schedule : List (Thread × UInt64))
    (trace : List (HandlerCall Thread)) (final : HandlerPool Thread)
    (ran : (Pool.step interpret).run (startHandlers handlers) schedule = some (trace, final))
    (finished : ∀ label ∈ schedule, (final.programs label.1).IsDone)
    (separate : ∀ first ∈ schedule, ∀ second ∈ schedule, first.1 ≠ second.1 →
      (handlers first.1).key = (handlers second.1).key →
      Pool.Precedes Prod.fst schedule first.1 second.1 ∨
        Pool.Precedes Prod.fst schedule second.1 first.1)
    (few : (schedule.map fun label => (handlers label.1).key).toFinset.card ≤ startTimesMaxEntries)
    (order : List Thread) (nodup : order.Nodup)
    (members : ∀ thread, thread ∈ order ↔ thread ∈ schedule.map Prod.fst)
    (keeps : ∀ first second, (handlers first).key = (handlers second).key →
      Pool.Precedes Prod.fst schedule first second → Pool.Precedes id order first second) :
    final.shared = order.foldl (fun kernel thread =>
      kernel.handle ((handlers thread).event (clockRead trace thread))) .loaded := by
  have scheduled : ∀ thread ∈ order, ∃ label ∈ schedule, label.1 = thread := by
    intro thread present
    exact List.mem_map.mp ((members thread).mp present)
  have separateOrder := Pool.pairwise_precedes nodup scheduled separate keeps
  have usedKeys : ∀ label ∈ schedule,
      (handlers label.1).key ∈ (schedule.map fun label => (handlers label.1).key).toFinset := by
    intro label present
    exact List.mem_toFinset.mpr (List.mem_map_of_mem present)
  have inOrder : ∀ label ∈ schedule, label.1 ∈ order := by
    intro label present
    exact (members label.1).mpr (List.mem_map_of_mem present)
  rcases Pool.run_serial (fun thread => (handlers thread).key)
      (fun _ _ _ _ ownKeys isUsed stepped => OwnKeys.step ownKeys isUsed stepped)
      (handlers_commute few) (ownKeys_start handlers _) usedKeys nodup inOrder separateOrder ran
    with ⟨serial, ranSerial, sameCalls⟩
  have sameClocks : ∀ thread, clockRead trace thread = clockRead serial thread := by
    intro thread
    exact clockRead_congr (sameCalls _).symm
  simp only [sameClocks]
  apply shared_of_serial _ _ nodup _ _ ranSerial
  · intro thread label present
    simpa using (List.mem_filter.mp present).2
  · intro thread _
    rfl
  · intro thread present
    rcases scheduled thread present with ⟨label, isScheduled, rfl⟩
    exact Program.isDone_iff.mp (finished label isScheduled)

/-- Two requests on one disk, the second of which is issued while the first one completes. -/
def twoRequests : Fin 3 → Handler
  | 0 => .issue ⟨8, 0⟩
  | 1 => .issue ⟨8, 8⟩
  | 2 => .complete ⟨8, 0⟩

def twoRequestsSchedule : List (Fin 3 × UInt64) :=
  [(0, 1000), (0, 1001), (1, 2000), (2, 3000), (2, 3001), (1, 3002), (2, 3003), (2, 3004)]

theorem handlers_serialisable_of_two_requests :
    ∃ trace final, (Pool.step interpret).run (startHandlers twoRequests) twoRequestsSchedule =
          some (trace, final) ∧
      final.shared = [1, 0, 2].foldl (fun kernel thread =>
        kernel.handle ((twoRequests thread).event (clockRead trace thread))) .loaded := by
  have evaluated : ((Pool.step interpret).run (startHandlers twoRequests) twoRequestsSchedule).map
      (fun result => decide (∀ thread, (result.2.programs thread).IsDone)) = some true := by
    decide +kernel
  rcases Option.map_eq_some_iff.mp evaluated with ⟨⟨trace, final⟩, ran, allDone⟩
  have finished : ∀ thread, (final.programs thread).IsDone := of_decide_eq_true allDone
  have separate : ∀ first second, first ≠ second →
      (twoRequests first).key = (twoRequests second).key →
      Pool.Precedes Prod.fst twoRequestsSchedule first second ∨
        Pool.Precedes Prod.fst twoRequestsSchedule second first := by
    decide +kernel
  exact ⟨trace, final, ran, handlers_serialisable _ _ _ _ ran (fun label _ => finished label.1)
    (fun first _ second _ => separate first.1 second.1) (by decide +kernel) [1, 0, 2] (by decide)
    (by decide +kernel) (by decide +kernel)⟩

end Sysmon.Ebpf
