import Mathlib.Data.Finset.Image
import Sysmon.Ebpf.Tracer

/-!
# The tracer and the lives of requests

The tracer sees events that carry a device and a sector. What it is for is to
measure requests: each is issued once and completes once, some were issued
before the tracer attached, and the latency of a request is the time between
its own two events. This file relates the two views.

A request is told apart from others only by its packed key. As long as no two
outstanding requests share a packed key, `start_times` holds exactly the
outstanding requests whose issue was stored, each with its own issue time, at
any load: a full table loses samples and nothing else. A run with requests
that share a key is measured wrongly, and the runs in which that happens are
delimited.
-/

namespace Sysmon.Ebpf

universe u

/-- A request is issued or completes while the clock shows `now`. -/
inductive RequestEvent (Request : Type u) where
  | issue (request : Request) (now : UInt64)
  | complete (request : Request) (now : UInt64)
deriving DecidableEq

structure Workload (Request : Type u) where
  ctx : Request → BlockRq
  /-- The requests that were issued before the tracer attached and are still outstanding then. -/
  inFlight : Finset Request

namespace RequestEvent

variable {Request : Type u}

def request : RequestEvent Request → Request
  | issue request _ | complete request _ => request

def toBlock (ctx : Request → BlockRq) : RequestEvent Request → BlockEvent
  | issue request now => .issue (ctx request) now
  | complete request now => .complete (ctx request) now

variable [DecidableEq Request]

def issueOf (request : Request) : RequestEvent Request → Option UInt64
  | issue issued now => if issued = request then some now else none
  | complete _ _ => none

def completionOf (request : Request) : RequestEvent Request → Option UInt64
  | issue _ _ => none
  | complete completed now => if completed = request then some now else none

theorem request_of_issueOf {event : RequestEvent Request} {request : Request} {time : UInt64}
    (isIssue : event.issueOf request = some time) : event.request = request := by
  cases event with
  | issue issued now =>
      by_contra different
      simp [issueOf, show issued ≠ request from different] at isIssue
  | complete completed now => cases isIssue

/-- The outstanding requests after the event. -/
def settle (outstanding : Finset Request) : RequestEvent Request → Finset Request
  | issue request _ => insert request outstanding
  | complete request _ => outstanding.erase request

end RequestEvent

open RequestEvent

variable {Request : Type u} [DecidableEq Request]

def issueTime (request : Request) (run : List (RequestEvent Request)) : Option UInt64 :=
  run.findSome? (issueOf request)

def completionTime (request : Request) (run : List (RequestEvent Request)) : Option UInt64 :=
  run.findSome? (completionOf request)

@[simp]
theorem issueTime_concat (request : Request) (run : List (RequestEvent Request))
    (event : RequestEvent Request) :
    issueTime request (run ++ [event]) = (issueTime request run).or (event.issueOf request) := by
  simp [issueTime, List.findSome?_append]

@[simp]
theorem completionTime_concat (request : Request) (run : List (RequestEvent Request))
    (event : RequestEvent Request) :
    completionTime request (run ++ [event]) =
      (completionTime request run).or (event.completionOf request) := by
  simp [completionTime, List.findSome?_append]

namespace Workload

variable (load : Workload Request)

def key (request : Request) : UInt64 := packKey (load.ctx request).dev (load.ctx request).sector

def events (run : List (RequestEvent Request)) : List BlockEvent :=
  run.map (toBlock load.ctx)

def kernel (run : List (RequestEvent Request)) : KernelState := tracer (load.events run)

def outstanding (run : List (RequestEvent Request)) : Finset Request :=
  run.foldl settle load.inFlight

/-- Requests are issued at most once, and complete at most once and only after their issue. -/
def Legal (before : List (RequestEvent Request)) : RequestEvent Request → Prop
  | .issue request _ => request ∉ load.inFlight ∧ issueTime request before = none
  | .complete request _ => request ∈ load.outstanding before

instance (before : List (RequestEvent Request)) : DecidablePred (load.Legal before)
  | .issue _ _ => inferInstanceAs (Decidable (_ ∧ _))
  | .complete _ _ => inferInstanceAs (Decidable (_ ∈ _))

/-- The issue of the request at `time` found fewer than the maximal number of entries stored. -/
def StoredAt (request : Request) (time : UInt64) (run : List (RequestEvent Request)) : Prop :=
  ∃ before, before ++ [.issue request time] <+: run ∧
    (load.kernel before).startTimes.size < startTimesMaxEntries

def KeysDistinct (run : List (RequestEvent Request)) : Prop :=
  ∀ request ∈ load.outstanding run, ∀ other ∈ load.outstanding run,
    load.key request = load.key other → request = other

instance : DecidablePred load.KeysDistinct := fun run =>
  inferInstanceAs (Decidable (∀ request ∈ load.outstanding run, _))

variable {load}

@[simp]
theorem outstanding_concat (run : List (RequestEvent Request)) (event : RequestEvent Request) :
    load.outstanding (run ++ [event]) = event.settle (load.outstanding run) := by
  simp [outstanding]

omit [DecidableEq Request] in
theorem events_concat (run : List (RequestEvent Request)) (event : RequestEvent Request) :
    load.events (run ++ [event]) = load.events run ++ [event.toBlock load.ctx] := by
  simp [events]

omit [DecidableEq Request] in
theorem kernel_concat (run : List (RequestEvent Request)) (event : RequestEvent Request) :
    load.kernel (run ++ [event]) = (load.kernel run).handle (event.toBlock load.ctx) := by
  rw [kernel, events_concat, tracer_concat, kernel]

omit [DecidableEq Request] in
theorem storedAt_concat {request : Request} {time : UInt64} {run : List (RequestEvent Request)}
    {event : RequestEvent Request} :
    load.StoredAt request time (run ++ [event]) ↔
      load.StoredAt request time run ∨
        (event = .issue request time ∧
          (load.kernel run).startTimes.size < startTimesMaxEntries) := by
  simp only [StoredAt, History.concat_prefix_concat_iff, or_and_right, exists_or, and_assoc,
    exists_eq_left]

/-! ## Lives of requests -/

section Lives

variable {run : List (RequestEvent Request)} {request : Request}

theorem issueTime_eq_some_iff {time : UInt64} (legal : History.Along load.Legal run) :
    issueTime request run = some time ↔ ∃ before, before ++ [.issue request time] <+: run := by
  induction run using List.reverseRecOn with
  | nil => simp [issueTime]
  | append_singleton run event ih =>
      rcases History.along_concat.mp legal with ⟨legalBefore, legalNow⟩
      have old := ih legalBefore
      simp only [History.concat_prefix_concat_iff, exists_or, exists_eq_left, ← old,
        issueTime_concat]
      cases event with
      | issue issued now =>
          by_cases same : issued = request
          · subst issued
            simp [issueOf, legalNow.2]
          · simp [issueOf, same]
      | complete completed now => simp [issueOf]

theorem inFlight_or_issued_of_outstanding (present : request ∈ load.outstanding run) :
    request ∈ load.inFlight ∨ issueTime request run ≠ none := by
  induction run using List.reverseRecOn with
  | nil => exact Or.inl present
  | append_singleton run event ih =>
      rw [outstanding_concat] at present
      rw [issueTime_concat]
      cases event with
      | issue issued now =>
          rcases Finset.mem_insert.mp present with rfl | old
          · right
            simp [issueOf]
          · exact (ih old).imp_right (by simp_all)
      | complete completed now =>
          exact (ih (Finset.mem_of_mem_erase present)).imp_right (by simp_all)

theorem not_outstanding_of_legal_issue {now : UInt64}
    (legal : load.Legal run (.issue request now)) : request ∉ load.outstanding run := by
  intro present
  rcases inFlight_or_issued_of_outstanding present with inFlight | issued
  · exact legal.1 inFlight
  · exact issued legal.2

theorem completionTime_of_outstanding (legal : History.Along load.Legal run)
    (present : request ∈ load.outstanding run) : completionTime request run = none := by
  -- A completed request was known before, so that it cannot be issued again.
  suffices h : (request ∈ load.outstanding run → completionTime request run = none) ∧
      (completionTime request run ≠ none →
        request ∈ load.inFlight ∨ issueTime request run ≠ none) from h.1 present
  clear present
  induction run using List.reverseRecOn with
  | nil => simp [completionTime]
  | append_singleton run event ih =>
      rcases History.along_concat.mp legal with ⟨legalBefore, legalNow⟩
      rcases ih legalBefore with ⟨notCompleted, known⟩
      rw [outstanding_concat, completionTime_concat, issueTime_concat]
      cases event with
      | issue issued now =>
          constructor
          · intro present
            rcases Finset.mem_insert.mp present with rfl | old
            · by_contra completed
              have wasCompleted : completionTime request run ≠ none := by
                simpa [completionOf] using completed
              rcases known wasCompleted with inFlight | wasIssued
              · exact legalNow.1 inFlight
              · exact wasIssued legalNow.2
            · simp [notCompleted old, completionOf]
          · intro completed
            have wasCompleted : completionTime request run ≠ none := by
              simpa [completionOf] using completed
            exact (known wasCompleted).imp_right (by simp_all)
      | complete completed now =>
          constructor
          · intro present
            rcases Finset.mem_erase.mp present with ⟨different, old⟩
            simp [notCompleted old, completionOf, Ne.symm different]
          · intro nowCompleted
            by_cases same : completed = request
            · subst completed
              exact (inFlight_or_issued_of_outstanding legalNow).imp_right (by simp_all)
            · have wasCompleted : completionTime request run ≠ none := by
                simpa [completionOf, same] using nowCompleted
              exact (known wasCompleted).imp_right (by simp_all)

omit [DecidableEq Request] in
/-- An issue is stored before it is used: its time is not in the future of a later event. -/
theorem storedAt_le_clock {event : RequestEvent Request} {time : UInt64}
    (ordered : ClockOrdered (load.events (run ++ [event])))
    (stored : load.StoredAt request time run) : time ≤ (event.toBlock load.ctx).clock := by
  rcases stored with ⟨before, ⟨after, rfl⟩, _⟩
  simp only [events, List.map_append, List.map_cons, List.map_nil] at ordered
  apply (clockOrdered_concat.mp ordered).2 (.issue (load.ctx request) time)
  simp [toBlock]

end Lives

/-! ## What `start_times` holds -/

section Table

variable {run : List (RequestEvent Request)}

/-- `start_times` holds exactly the outstanding requests whose issue was stored, each with its own
issue time. -/
def TableHolds (load : Workload Request) (run : List (RequestEvent Request)) : Prop :=
  ∀ key time, (load.kernel run).startTimes.lookup key = some time ↔
    ∃ request ∈ load.outstanding run, load.key request = key ∧ load.StoredAt request time run

private theorem tableHolds_issue {issued : Request} {now : UInt64} (held : load.TableHolds run)
    (legal : History.Along load.Legal run) (legalNow : load.Legal run (.issue issued now))
    (distinct : load.KeysDistinct (run ++ [.issue issued now])) :
    load.TableHolds (run ++ [.issue issued now]) := by
  have fresh := not_outstanding_of_legal_issue legalNow
  rw [KeysDistinct, outstanding_concat] at distinct
  have others : ∀ request ∈ load.outstanding run, load.key request ≠ load.key issued := by
    intro request present same
    have := distinct request (Finset.mem_insert_of_mem present) issued
      (Finset.mem_insert_self _ _) same
    exact fresh (this ▸ present)
  have neverStored : ∀ time, ¬load.StoredAt issued time run := by
    rintro time ⟨before, isPrefix, _⟩
    have := (issueTime_eq_some_iff legal).mpr ⟨before, isPrefix⟩
    simp [legalNow.2] at this
  -- The key of a fresh request is not in use, so that only the room decides.
  have absent : load.key issued ∉ (load.kernel run).startTimes.keys := by
    rw [BoundedMap.mem_keys, Option.isSome_iff_exists]
    rintro ⟨time, found⟩
    rcases (held _ _).mp found with ⟨request, present, same, _⟩
    exact others request present same
  have accepts : (load.kernel run).startTimes.Accepts (load.key issued) ↔
      (load.kernel run).startTimes.size < startTimesMaxEntries :=
    or_iff_right absent
  intro key time
  rw [kernel_concat, outstanding_concat, toBlock, KernelState.handle_issue]
  change (BoundedMap.update _ (load.key issued) now).lookup key = some time ↔ _
  simp only [BoundedMap.lookup_update, accepts, storedAt_concat, settle]
  by_cases own : key = load.key issued
  · subst own
    rw [BoundedMap.lookup_eq_none_iff.mpr absent]
    constructor
    · intro found
      have room : (load.kernel run).startTimes.size < startTimesMaxEntries := by
        by_contra full
        simp [full] at found
      have same : now = time := by simpa [room] using found
      exact ⟨issued, Finset.mem_insert_self _ _, rfl, Or.inr ⟨by rw [same], room⟩⟩
    · rintro ⟨request, present, same, stored⟩
      rcases Finset.mem_insert.mp present with rfl | old
      · rcases stored with earlier | ⟨isIssue, room⟩
        · exact absurd earlier (neverStored time)
        · simp only [RequestEvent.issue.injEq, true_and] at isIssue
          simp [room, isIssue]
      · exact absurd same (others request old)
  · rw [if_neg (by simp [own]), held]
    constructor
    · rintro ⟨request, present, same, stored⟩
      exact ⟨request, Finset.mem_insert_of_mem present, same, Or.inl stored⟩
    · rintro ⟨request, present, same, stored⟩
      rcases Finset.mem_insert.mp present with rfl | old
      · exact absurd same.symm own
      · refine ⟨request, old, same, stored.resolve_right ?_⟩
        rintro ⟨isIssue, _⟩
        simp only [RequestEvent.issue.injEq] at isIssue
        exact fresh (isIssue.1 ▸ old)

private theorem tableHolds_complete {completed : Request} {now : UInt64}
    (held : load.TableHolds run) (legalNow : load.Legal run (.complete completed now))
    (distinct : load.KeysDistinct run) :
    load.TableHolds (run ++ [.complete completed now]) := by
  intro key time
  rw [kernel_concat, outstanding_concat, toBlock, KernelState.lookup_handle_complete]
  change (if key = load.key completed then none else _) = some time ↔ _
  simp only [storedAt_concat, settle]
  by_cases own : key = load.key completed
  · subst own
    simp only [if_true, reduceCtorEq, false_iff]
    rintro ⟨request, present, same, _⟩
    rcases Finset.mem_erase.mp present with ⟨different, old⟩
    exact different (distinct request old completed legalNow same)
  · rw [if_neg own, held]
    constructor
    · rintro ⟨request, present, same, stored⟩
      refine ⟨request, Finset.mem_erase.mpr ⟨?_, present⟩, same, Or.inl stored⟩
      rintro rfl
      exact own same.symm
    · rintro ⟨request, present, same, stored⟩
      exact ⟨request, Finset.mem_of_mem_erase present, same, by simpa using stored⟩

/-- While outstanding requests have different packed keys, `start_times` holds what it should, at
any load. -/
theorem tableHolds (legal : History.Along load.Legal run)
    (distinct : History.Throughout load.KeysDistinct run) : load.TableHolds run := by
  induction run using List.reverseRecOn with
  | nil => simp [TableHolds, kernel, events, StoredAt]
  | append_singleton run event ih =>
      rcases History.along_concat.mp legal with ⟨legalBefore, legalNow⟩
      rcases History.throughout_concat.mp distinct with ⟨distinctBefore, distinctNow⟩
      have held := ih legalBefore distinctBefore
      cases event with
      | issue issued now => exact tableHolds_issue held legalBefore legalNow distinctNow
      | complete completed now => exact tableHolds_complete held legalNow distinctBefore.self

theorem hist_complete_of_stored {request : Request} {time now : UInt64}
    (legal : History.Along load.Legal (run ++ [.complete request now]))
    (distinct : History.Throughout load.KeysDistinct run)
    (stored : load.StoredAt request time run) :
    (load.kernel (run ++ [.complete request now])).ioLatencyHist =
      ((load.kernel run).increment (latencyBucket (now - time))).ioLatencyHist := by
  rcases History.along_concat.mp legal with ⟨legalBefore, present⟩
  have found : (load.kernel run).startTimes.lookup (load.key request) = some time :=
    (tableHolds legalBefore distinct _ _).mpr ⟨request, present, rfl, stored⟩
  rw [kernel_concat, toBlock, KernelState.handle_complete_of_some now found]
  rfl

theorem hist_complete_of_not_stored {request : Request} {now : UInt64}
    (legal : History.Along load.Legal (run ++ [.complete request now]))
    (distinct : History.Throughout load.KeysDistinct run)
    (notStored : ∀ time, ¬load.StoredAt request time run) :
    load.kernel (run ++ [.complete request now]) = load.kernel run := by
  rcases History.along_concat.mp legal with ⟨legalBefore, present⟩
  have absent : (load.kernel run).startTimes.lookup (load.key request) = none := by
    rw [Option.eq_none_iff_forall_ne_some]
    intro time found
    rcases (tableHolds legalBefore distinct _ _).mp found with ⟨other, otherPresent, same, stored⟩
    rw [distinct.self other otherPresent request present same] at stored
    exact notStored time stored
  rw [kernel_concat, toBlock, KernelState.handle_complete_of_none now absent]

end Table

end Workload

end Sysmon.Ebpf
