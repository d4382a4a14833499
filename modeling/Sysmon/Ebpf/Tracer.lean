import Sysmon.Ebpf.BlockLatency
import Sysmon.Library.History

/-!
# The tracer over a sequence of events

Handlers that run one after the other turn a sequence of tracepoint events
into a state of the two maps. This file says what that state means in terms of
the events alone: `start_times` maps a packed key to the time of the last
event on the key if that event is an issue, and a counter of
`io_latency_hist` is the number of completions whose preceding event on the
same key is an issue that lies the right time back.

The one limit is the size of `start_times`. The refinement holds as long as
no more keys are pending than the map has room for; `Sysmon.Ebpf.Requests`
describes what happens beyond.
-/

namespace Sysmon.Ebpf

/-- A tracepoint fires while the clock shows `now`. -/
inductive BlockEvent where
  | issue (ctx : BlockRq) (now : UInt64)
  | complete (ctx : BlockRq) (now : UInt64)
deriving DecidableEq

namespace BlockEvent

def ctx : BlockEvent → BlockRq
  | issue ctx _ | complete ctx _ => ctx

def clock : BlockEvent → UInt64
  | issue _ now | complete _ now => now

def key (event : BlockEvent) : UInt64 := packKey event.ctx.dev event.ctx.sector

def issueTime : BlockEvent → Option UInt64
  | issue _ now => some now
  | complete _ _ => none

@[simp]
theorem key_issue (ctx : BlockRq) (now : UInt64) :
    (issue ctx now).key = packKey ctx.dev ctx.sector := rfl

@[simp]
theorem key_complete (ctx : BlockRq) (now : UInt64) :
    (complete ctx now).key = packKey ctx.dev ctx.sector := rfl

end BlockEvent

namespace KernelState

/-- The handler of the event runs without interruption. -/
def handle (kernel : KernelState) : BlockEvent → KernelState
  | .issue ctx now => ((traceRqIssue ctx).exec (interpret now) kernel).2
  | .complete ctx now => ((traceRqComplete ctx).exec (interpret now) kernel).2

theorem handle_issue (kernel : KernelState) (ctx : BlockRq) (now : UInt64) :
    kernel.handle (.issue ctx now) =
      { kernel with startTimes := kernel.startTimes.update (packKey ctx.dev ctx.sector) now } :=
  rfl

theorem handle_complete_of_none {kernel : KernelState} {ctx : BlockRq} (now : UInt64)
    (absent : kernel.startTimes.lookup (packKey ctx.dev ctx.sector) = none) :
    kernel.handle (.complete ctx now) = kernel := by
  rw [handle, exec_traceRqComplete, absent]

theorem handle_complete_of_some {kernel : KernelState} {ctx : BlockRq} {start : UInt64}
    (now : UInt64)
    (found : kernel.startTimes.lookup (packKey ctx.dev ctx.sector) = some start) :
    kernel.handle (.complete ctx now) =
      { kernel with
        startTimes := kernel.startTimes.delete (packKey ctx.dev ctx.sector)
      }.increment (latencyBucket (now - start)) := by
  rw [handle, exec_traceRqComplete, found]

theorem lookup_handle_complete (kernel : KernelState) (ctx : BlockRq) (now other : UInt64) :
    (kernel.handle (.complete ctx now)).startTimes.lookup other =
      if other = packKey ctx.dev ctx.sector then none else kernel.startTimes.lookup other := by
  cases found : kernel.startTimes.lookup (packKey ctx.dev ctx.sector) with
  | none =>
      rw [handle_complete_of_none now found]
      split
      · rename_i same
        rw [same, found]
      · rfl
  | some start =>
      rw [handle_complete_of_some now found]
      simp [BoundedMap.lookup_delete]

end KernelState

def tracer (events : List BlockEvent) : KernelState :=
  events.foldl KernelState.handle .loaded

@[simp]
theorem tracer_nil : tracer [] = .loaded := rfl

@[simp]
theorem tracer_concat (events : List BlockEvent) (event : BlockEvent) :
    tracer (events ++ [event]) = (tracer events).handle event := by
  simp [tracer]

/-! ## What the events say -/

def lastOn (key : UInt64) (events : List BlockEvent) : Option BlockEvent :=
  History.last (fun event => event.key = key) events

/-- The time since which a key is pending: its last event is an issue at that time. -/
def pendingSince (events : List BlockEvent) (key : UInt64) : Option UInt64 :=
  (lastOn key events).bind BlockEvent.issueTime

def pending (events : List BlockEvent) : Finset UInt64 :=
  (events.map BlockEvent.key).toFinset.filter fun key => (pendingSince events key).isSome

/-- A completion that follows an issue on the same key, at a distance that belongs to `bucket`. -/
def IsSample (bucket : Fin histBuckets) (before : List BlockEvent) : BlockEvent → Prop
  | .issue _ _ => False
  | .complete ctx now =>
    ∃ start ∈ pendingSince before (packKey ctx.dev ctx.sector),
      InBucket bucket ((now.toNat - start.toNat) / 1000)

instance (bucket : Fin histBuckets) (before : List BlockEvent) :
    DecidablePred (IsSample bucket before)
  | .issue _ _ => inferInstanceAs (Decidable False)
  | .complete _ _ => inferInstanceAs (Decidable (∃ start ∈ _, _))

theorem pendingSince_eq_some_iff {events : List BlockEvent} {key time : UInt64} :
    pendingSince events key = some time ↔
      ∃ ctx, lastOn key events = some (.issue ctx time) := by
  rw [pendingSince]
  cases lastOn key events with
  | none => simp
  | some event => cases event <;> simp [BlockEvent.issueTime]

@[simp]
theorem pendingSince_nil (key : UInt64) : pendingSince [] key = none := rfl

theorem pendingSince_concat (events : List BlockEvent) (event : BlockEvent) (key : UInt64) :
    pendingSince (events ++ [event]) key =
      if event.key = key then event.issueTime else pendingSince events key := by
  rw [pendingSince, lastOn, History.last_concat]
  split <;> rfl

theorem mem_pending {events : List BlockEvent} {key : UInt64} :
    key ∈ pending events ↔ (pendingSince events key).isSome := by
  simp only [pending, Finset.mem_filter, List.mem_toFinset, and_iff_right_iff_imp]
  intro isPending
  rcases Option.isSome_iff_exists.mp isPending with ⟨time, since⟩
  rcases pendingSince_eq_some_iff.mp since with ⟨ctx, isLast⟩
  have ⟨present, keyEq⟩ := History.last_mem isLast
  exact List.mem_map.mpr ⟨_, present, keyEq⟩

def ClockOrdered (events : List BlockEvent) : Prop :=
  (events.map BlockEvent.clock).Pairwise (· ≤ ·)

instance : DecidablePred ClockOrdered := fun events =>
  inferInstanceAs (Decidable ((events.map BlockEvent.clock).Pairwise (· ≤ ·)))

theorem clockOrdered_concat {events : List BlockEvent} {event : BlockEvent} :
    ClockOrdered (events ++ [event]) ↔
      ClockOrdered events ∧ ∀ earlier ∈ events, earlier.clock ≤ event.clock := by
  simp [ClockOrdered, List.pairwise_append]

theorem pendingSince_le_clock {events : List BlockEvent} {event : BlockEvent} {key start : UInt64}
    (ordered : ClockOrdered (events ++ [event]))
    (since : pendingSince events key = some start) : start ≤ event.clock := by
  rcases pendingSince_eq_some_iff.mp since with ⟨ctx, isLast⟩
  have ⟨present, _⟩ := History.last_mem isLast
  exact (clockOrdered_concat.mp ordered).2 _ present

/-! ## The maps mean what the events say -/

/-- An entry of `start_times` always comes from the last event on its key, full map or not. -/
theorem pendingSince_of_lookup {events : List BlockEvent} {key start : UInt64}
    (found : (tracer events).startTimes.lookup key = some start) :
    pendingSince events key = some start := by
  induction events using List.reverseRecOn with
  | nil => simp at found
  | append_singleton events event ih =>
      rw [tracer_concat] at found
      rw [pendingSince_concat]
      cases event with
      | issue ctx now =>
          rw [KernelState.handle_issue] at found
          simp only [BlockEvent.key_issue, BlockEvent.issueTime]
          by_cases own : packKey ctx.dev ctx.sector = key
          · subst own
            by_cases accepts : (tracer events).startTimes.Accepts (packKey ctx.dev ctx.sector)
            · simpa [BoundedMap.lookup_update_self accepts] using found
            · simp [BoundedMap.update_of_not_accepts accepts,
                BoundedMap.lookup_of_not_accepts accepts] at found
          · rw [BoundedMap.lookup_update_of_ne _ (Ne.symm own)] at found
            simpa [own] using ih found
      | complete ctx now =>
          rw [KernelState.lookup_handle_complete] at found
          simp only [BlockEvent.key_complete, BlockEvent.issueTime]
          by_cases own : packKey ctx.dev ctx.sector = key
          · simp [own] at found
          · rw [if_neg (Ne.symm own)] at found
            simpa [own] using ih found

def Fits : List BlockEvent → Prop :=
  History.Throughout fun before => (pending before).card ≤ startTimesMaxEntries

instance : DecidablePred Fits := fun events =>
  inferInstanceAs (Decidable (History.Throughout _ events))

/-- While the pending keys fit into `start_times`, it holds exactly the pending issues. -/
theorem lookup_tracer {events : List BlockEvent} (fits : Fits events) (key : UInt64) :
    (tracer events).startTimes.lookup key = pendingSince events key := by
  induction events using List.reverseRecOn generalizing key with
  | nil => simp
  | append_singleton events event ih =>
      rcases History.throughout_concat.mp fits with ⟨fitsBefore, fitsNow⟩
      have held := ih fitsBefore
      rw [tracer_concat, pendingSince_concat]
      cases event with
      | issue ctx now =>
          have accepts : (tracer events).startTimes.Accepts (packKey ctx.dev ctx.sector) := by
            apply BoundedMap.accepts_of_keys_subset (pending (events ++ [.issue ctx now]))
            · intro other present
              rw [BoundedMap.mem_keys, held] at present
              rw [mem_pending, pendingSince_concat]
              split
              · rfl
              · exact present
            · exact fitsNow
            · simp [mem_pending, pendingSince_concat, BlockEvent.issueTime]
          rw [KernelState.handle_issue]
          simp only [BoundedMap.lookup_update, accepts, and_true, BlockEvent.key_issue,
            BlockEvent.issueTime, held, eq_comm]
      | complete ctx now =>
          simp only [KernelState.lookup_handle_complete, BlockEvent.key_complete,
            BlockEvent.issueTime, held, eq_comm]

theorem ioLatencyHist_tracer {events : List BlockEvent} (ordered : ClockOrdered events)
    (fits : Fits events) (bucket : Fin histBuckets) :
    (tracer events).ioLatencyHist bucket =
      UInt64.ofNat (History.count (IsSample bucket) events) := by
  induction events using List.reverseRecOn with
  | nil => simp [KernelState.loaded]
  | append_singleton events event ih =>
      have fitsBefore : Fits events := (History.throughout_concat.mp fits).1
      have counted := ih (clockOrdered_concat.mp ordered).1 fitsBefore
      rw [tracer_concat, History.count_concat, UInt64.ofNat_add, ← counted]
      cases event with
      | issue ctx now => simp [KernelState.handle_issue, IsSample]
      | complete ctx now =>
          have held := lookup_tracer fitsBefore (packKey ctx.dev ctx.sector)
          cases since : pendingSince events (packKey ctx.dev ctx.sector) with
          | none =>
              rw [since] at held
              simp [KernelState.handle_complete_of_none now held, IsSample, since]
          | some start =>
              rw [since] at held
              have inPast : start ≤ now := pendingSince_le_clock ordered since
              rw [KernelState.handle_complete_of_some now held, KernelState.increment_ioLatencyHist]
              simp [IsSample, since, latencyBucket_sub_eq_iff inPast]
              split <;> rfl

/-- The two maps refine the history of events: `start_times` holds the keys whose last event is an
issue, with the time of that issue; every counter is the number of its samples, modulo `2 ^ 64`;
no latency is computed from a start time in the future, and no bucket index is out of range. -/
theorem tracer_refines_history (events : List BlockEvent) (ordered : ClockOrdered events)
    (fits : Fits events) :
    (∀ before, before <+: events → ∀ key time,
      (tracer before).startTimes.lookup key = some time ↔
        ∃ ctx, lastOn key before = some (.issue ctx time)) ∧
    (∀ bucket, (tracer events).ioLatencyHist bucket =
      UInt64.ofNat (History.count (IsSample bucket) events)) ∧
    (∀ before ctx now start, before ++ [.complete ctx now] <+: events →
      (tracer before).startTimes.lookup (packKey ctx.dev ctx.sector) = some start →
      start ≤ now ∧ (bucketFor ((now - start) / 1000)).toNat < histBuckets) := by
  refine ⟨?_, ioLatencyHist_tracer ordered fits, ?_⟩
  · intro before isPrefix key time
    rw [lookup_tracer (fits.of_prefix isPrefix), pendingSince_eq_some_iff]
  · intro before ctx now start isPrefix found
    have orderedPrefix : ClockOrdered (before ++ [.complete ctx now]) :=
      List.Pairwise.sublist (isPrefix.map BlockEvent.clock).sublist ordered
    exact ⟨pendingSince_le_clock orderedPrefix (pendingSince_of_lookup found), bucketFor_lt _⟩

theorem tracer_refines_history_of_reissue :
    (tracer [.issue ⟨1, 7⟩ 1000, .issue ⟨1, 7⟩ 2000, .complete ⟨1, 7⟩ 8000,
      .complete ⟨2, 7⟩ 9000]).ioLatencyHist 3 = 1 := by
  rw [(tracer_refines_history _ (by decide +kernel) (by decide +kernel)).2.1 3]
  decide +kernel

end Sysmon.Ebpf
