import Sysmon.Ebpf.Tracer
import Sysmon.Library.Interleaving

/-!
# Handlers on several CPUs

Every event runs its own handler, and handlers of different events run at the
same time. A pool holds one handler per thread, a schedule says which thread
performs its next helper call at which time, and every schedule is possible.

Helper calls on different packed keys do not notice each other as long as all
keys in use fit into `start_times`. What handlers on one key do to each other
is the subject of `Sysmon.Ebpf.Overlap`; that handlers on different keys might
as well run one after the other is shown in `Sysmon.Ebpf.Serialisation`.
-/

namespace Sysmon.Ebpf

inductive Handler where
  | issue (ctx : BlockRq)
  | complete (ctx : BlockRq)

namespace Handler

def program : Handler → BpfProgram Unit
  | issue ctx => traceRqIssue ctx
  | complete ctx => traceRqComplete ctx

def ctx : Handler → BlockRq
  | issue ctx | complete ctx => ctx

def key (handler : Handler) : UInt64 := packKey handler.ctx.dev handler.ctx.sector

/-- The event that runs the handler without interruption. -/
def event (handler : Handler) (now : UInt64) : BlockEvent :=
  match handler with
  | issue ctx => .issue ctx now
  | complete ctx => .complete ctx now

end Handler

abbrev HandlerPool (Thread : Type*) := Pool Thread BpfOp.Answer Unit KernelState

/-- A helper call of a thread at a time, with its answer. -/
abbrev HandlerCall (Thread : Type*) := (Thread × UInt64) × Performed BpfOp.Answer

/-- All handlers are about to start on freshly loaded maps. -/
def startHandlers {Thread : Type*} (handlers : Thread → Handler) : HandlerPool Thread where
  programs thread := (handlers thread).program
  shared := .loaded

def BpfOp.key : BpfOp → Option UInt64
  | startTimesLookup key | startTimesUpdate key _ | startTimesDelete key => some key
  | ktimeGetNs | fetchAndAdd _ => none

/-! ## Helper calls on different keys -/

namespace KernelState

variable {kernel other : KernelState} {operation : BpfOp} {used : Finset UInt64}

theorem lookup_interpret_of_ne (now : UInt64) {key : UInt64} (foreign : key ∉ operation.key) :
    (interpret now operation kernel).2.startTimes.lookup key = kernel.startTimes.lookup key := by
  cases operation with
  | startTimesUpdate own value =>
      apply BoundedMap.lookup_update_of_ne
      intro same
      exact foreign (by simp [BpfOp.key, same])
  | startTimesDelete own =>
      apply BoundedMap.lookup_delete_of_ne
      intro same
      exact foreign (by simp [BpfOp.key, same])
  | _ => rfl

theorem keys_interpret_subset (now : UInt64) (within : kernel.startTimes.keys ⊆ used)
    (isUsed : ∀ key ∈ operation.key, key ∈ used) :
    (interpret now operation kernel).2.startTimes.keys ⊆ used := by
  cases operation with
  | startTimesUpdate key value =>
      apply (BoundedMap.keys_update_subset _ _ _).trans
      apply Finset.insert_subset
      · exact isUsed key rfl
      · exact within
  | startTimesDelete key => exact (BoundedMap.keys_delete_subset _ _).trans within
  | _ => exact within

/-- What a helper call answers, and what it leaves under its key, depends on the entry of its key
only, if all keys fit. -/
theorem interpret_congr (now : UInt64) (fits : used.card ≤ startTimesMaxEntries)
    (isUsed : ∀ key ∈ operation.key, key ∈ used) (within : kernel.startTimes.keys ⊆ used)
    (otherWithin : other.startTimes.keys ⊆ used)
    (same : ∀ key ∈ operation.key, kernel.startTimes.lookup key = other.startTimes.lookup key) :
    (interpret now operation kernel).1 = (interpret now operation other).1 ∧
      ∀ key ∈ operation.key, (interpret now operation kernel).2.startTimes.lookup key =
        (interpret now operation other).2.startTimes.lookup key := by
  cases operation with
  | ktimeGetNs => exact ⟨rfl, same⟩
  | startTimesLookup key => exact ⟨same key rfl, same⟩
  | startTimesUpdate key value =>
      have accepts := BoundedMap.accepts_of_keys_subset used within fits (isUsed key rfl)
      have otherAccepts := BoundedMap.accepts_of_keys_subset used otherWithin fits (isUsed key rfl)
      constructor
      · simp [interpret, accepts, otherAccepts]
      · intro updated isKey
        rw [show updated = key by simpa [BpfOp.key, eq_comm] using isKey]
        simp only [interpret, BoundedMap.lookup_update_self accepts,
          BoundedMap.lookup_update_self otherAccepts]
  | startTimesDelete key =>
      constructor
      · simp [interpret, same key rfl]
      · intro deleted isKey
        rw [show deleted = key by simpa [BpfOp.key, eq_comm] using isKey]
        simp only [interpret, BoundedMap.lookup_delete_self]
  | fetchAndAdd count => exact ⟨rfl, same⟩

theorem exchangeable {first second : BpfOp} (firstNow secondNow : UInt64)
    (fits : used.card ≤ startTimesMaxEntries) (within : kernel.startTimes.keys ⊆ used)
    (firstUsed : ∀ key ∈ first.key, key ∈ used) (secondUsed : ∀ key ∈ second.key, key ∈ used)
    (different : ∀ key ∈ first.key, key ∉ second.key) :
    Pool.Exchangeable interpret kernel first second firstNow secondNow := by
  have different' : ∀ key ∈ second.key, key ∉ first.key := by
    intro key isSecond isFirst
    exact different key isFirst isSecond
  have firstLocal := interpret_congr firstNow fits firstUsed
    (keys_interpret_subset secondNow within secondUsed) within
    fun key isKey => lookup_interpret_of_ne secondNow (different key isKey)
  have secondLocal := interpret_congr secondNow fits secondUsed
    (keys_interpret_subset firstNow within firstUsed) within
    fun key isKey => lookup_interpret_of_ne firstNow (different' key isKey)
  constructor
  · exact firstLocal.1
  · exact secondLocal.1
  · apply KernelState.ext
    · apply BoundedMap.ext
      intro key
      by_cases isFirst : key ∈ first.key
      · rw [firstLocal.2 key isFirst, lookup_interpret_of_ne secondNow (different key isFirst)]
      · rw [lookup_interpret_of_ne firstNow isFirst]
        by_cases isSecond : key ∈ second.key
        · rw [secondLocal.2 key isSecond]
        · rw [lookup_interpret_of_ne secondNow isSecond, lookup_interpret_of_ne secondNow isSecond,
            lookup_interpret_of_ne firstNow isFirst]
    · funext bucket
      simp only [ioLatencyHist_interpret, UInt64.add_assoc]
      congr 1
      exact UInt64.add_comm _ _

end KernelState

end Sysmon.Ebpf
