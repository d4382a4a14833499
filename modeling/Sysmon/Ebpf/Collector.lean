import Sysmon.Go.Values
import Sysmon.Library.Contract

/-!
# The collector

This file embeds `NewCollector` and `Close` of `loader.go`, and the part of the
generated code that loads and closes the BPF objects. The collector takes four
objects and two links from the kernel, and each step may fail. Every failure on
the way gives back what was taken before, links first.

A failing `Close` stops the generated `_BlockLatencyClose`, and its error is
dropped by all callers. So the objects behind the first one whose `Close` fails
stay loaded. Whether a `Close` that fails gives back its own object or link
nevertheless is up to the BPF library, and a parameter here.
-/

namespace Sysmon.Ebpf

open Sysmon.Go

inductive Tracepoint where
  | blockRqIssue
  | blockRqComplete
deriving DecidableEq

/-- The fields of `blockLatencyObjects`. -/
inductive BpfObject where
  | traceRqComplete
  | traceRqIssue
  | ioLatencyHist
  | startTimes
deriving DecidableEq

/-- What the collector asks of the kernel and of the BPF library. -/
inductive CollectorOp where
  | statBTF
  | loadCollectionSpec
  | loadAndAssign
  | attach (tracepoint : Tracepoint)
  | closeLink (link : Tracepoint)
  | closeObject (object : BpfObject)
deriving DecidableEq

/-- Every operation answers an error with its text, or none. -/
abbrev CollectorOp.Answer (_ : CollectorOp) : Type := Option GoString

abbrev CollectorProgram := Program CollectorOp.Answer

abbrev request (operation : CollectorOp) : CollectorProgram (Option GoString) :=
  .perform operation

/-- `_BlockLatencyClose`. -/
def blockLatencyClose :
    List (CollectorProgram (Option GoString)) → CollectorProgram (Option GoString)
  | [] => return none
  | closer :: closers => do
    match ← closer with
    | some err => return some err
    | none => blockLatencyClose closers

/-- `blockLatencyPrograms.Close`. -/
def closePrograms : CollectorProgram (Option GoString) :=
  blockLatencyClose [request (.closeObject .traceRqComplete), request (.closeObject .traceRqIssue)]

/-- `blockLatencyMaps.Close`. -/
def closeMaps : CollectorProgram (Option GoString) :=
  blockLatencyClose [request (.closeObject .ioLatencyHist), request (.closeObject .startTimes)]

/-- `blockLatencyObjects.Close`. -/
def closeObjects : CollectorProgram (Option GoString) :=
  blockLatencyClose [closePrograms, closeMaps]

def loadBlockLatency : CollectorProgram (Option GoString) := do
  match ← request .loadCollectionSpec with
  | some err => return some (text "can't load blockLatency: " ++ err)
  | none => return none

def loadBlockLatencyObjects : CollectorProgram (Option GoString) := do
  match ← loadBlockLatency with
  | some err => return some err
  | none => request .loadAndAssign

structure Collector where
  links : List Tracepoint
deriving DecidableEq

def closeLinks : List Tracepoint → CollectorProgram Unit
  | [] => return ()
  | link :: links => do
    let _ ← request (.closeLink link)
    closeLinks links

def newCollector : CollectorProgram (Except GoString Collector) := do
  match ← request .statBTF with
  | some err =>
    return .error (text "BTF not available at /sys/kernel/btf/vmlinux — requires Linux 5.8+ " ++
      text "with CONFIG_DEBUG_INFO_BTF=y: " ++ err)
  | none =>
    match ← loadBlockLatencyObjects with
    | some err => return .error (text "loading BPF objects: " ++ err)
    | none =>
      match ← request (.attach .blockRqIssue) with
      | some err =>
        let _ ← closeObjects
        return .error (text "attaching block_rq_issue tracepoint: " ++ err)
      | none =>
        let c : Collector := ⟨[.blockRqIssue]⟩
        match ← request (.attach .blockRqComplete) with
        | some err =>
          closeLinks c.links
          let _ ← closeObjects
          return .error (text "attaching block_rq_complete tracepoint: " ++ err)
        | none => return .ok ⟨c.links ++ [.blockRqComplete]⟩

/-- `Collector.Close`. -/
def Collector.close (c : Collector) : CollectorProgram Unit := do
  closeLinks c.links
  let _ ← closeObjects
  return ()

/-- `NewCollector` of `stub.go`, which is compiled where eBPF is left out. -/
def stubCollector : CollectorProgram (Except GoString Collector) :=
  return .error (text "eBPF support not compiled in — rebuild with: go build -tags ebpf " ++
    text "./cmd/sysmon\n  Also requires: Linux 5.8+, root/CAP_BPF, and running " ++
    text "`go generate ./internal/ebpf/...` first")

/-! ## What the process holds -/

/-- The links that are attached, and the objects that are loaded. -/
structure Holdings where
  links : List Tracepoint
  objects : List BpfObject
deriving DecidableEq

/-- The objects in the order in which they are closed. -/
def closeOrder : List BpfObject := [.traceRqComplete, .traceRqIssue, .ioLatencyHist, .startTimes]

namespace Holdings

def none : Holdings := ⟨[], []⟩

def all : Holdings := ⟨[.blockRqIssue, .blockRqComplete], closeOrder⟩

end Holdings

/-- `Close` has given its link or object back: it has succeeded, or it has failed after that, as
`releases` says. -/
def GivenUp (releases : CollectorOp → Bool) (operation : CollectorOp) (err : Option GoString) :
    Bool :=
  err.isNone || releases operation

/-- What an operation with its answer does to the holdings. -/
def CollectorOp.advance (releases : CollectorOp → Bool) :
    CollectorOp → Option GoString → Holdings → Holdings
  | loadAndAssign, .none, held => { held with objects := closeOrder }
  | attach tracepoint, .none, held => { held with links := held.links ++ [tracepoint] }
  | closeLink link, err, held =>
    if GivenUp releases (closeLink link) err then { held with links := held.links.erase link }
    else held
  | closeObject object, err, held =>
    if GivenUp releases (closeObject object) err then
      { held with objects := held.objects.erase object }
    else held
  | _, _, held => held

def CollectorOp.interpret (fault : CollectorOp → Option GoString) (releases : CollectorOp → Bool)
    (operation : CollectorOp) (held : Holdings) : Option GoString × Holdings :=
  (fault operation, CollectorOp.advance releases operation (fault operation) held)

section Lifecycle

variable (fault : CollectorOp → Option GoString) (releases : CollectorOp → Bool)

/-- The `Close` gives nothing back. -/
def Stays (operation : CollectorOp) : Bool := !GivenUp releases operation (fault operation)

/-- The objects that closing leaves: those behind the first one whose `Close` fails, and that one
unless it is released. -/
def leftOpen : List BpfObject → List BpfObject
  | [] => []
  | object :: objects =>
    if (fault (.closeObject object)).isNone then leftOpen objects
    else if releases (.closeObject object) then objects
    else object :: objects

/-- The links that closing leaves. -/
def leftAttached (links : List Tracepoint) : List Tracepoint :=
  links.filter fun link => Stays fault releases (.closeLink link)

@[simp]
theorem exec_request (operation : CollectorOp) (held : Holdings) :
    (request operation).exec (CollectorOp.interpret fault releases) held =
      (fault operation, CollectorOp.advance releases operation (fault operation) held) := rfl

theorem exec_blockLatencyClose_cons (closer : CollectorProgram (Option GoString))
    (closers : List (CollectorProgram (Option GoString))) (held : Holdings) :
    (blockLatencyClose (closer :: closers)).exec (CollectorOp.interpret fault releases) held =
      match closer.exec (CollectorOp.interpret fault releases) held with
      | (some err, next) => (some err, next)
      | (.none, next) =>
        (blockLatencyClose closers).exec (CollectorOp.interpret fault releases) next := by
  rw [blockLatencyClose, Program.exec_bind]
  rcases closer.exec (CollectorOp.interpret fault releases) held with ⟨_ | err, next⟩ <;> rfl

/-- Closing objects in turn ends at the first one whose `Close` fails. -/
theorem exec_closeEach (objects : List BpfObject) (links : List Tracepoint) :
    (blockLatencyClose (objects.map fun object => request (.closeObject object))).exec
        (CollectorOp.interpret fault releases) ⟨links, objects⟩ =
      (objects.findSome? fun object => fault (.closeObject object),
        ⟨links, leftOpen fault releases objects⟩) := by
  induction objects with
  | nil => rfl
  | cons object objects ih =>
      rw [List.map_cons, exec_blockLatencyClose_cons, List.findSome?_cons, leftOpen]
      simp only [exec_request, CollectorOp.advance, GivenUp, List.erase_cons_head]
      cases failed : fault (.closeObject object) with
      | none => simpa using ih
      | some err => cases releases (.closeObject object) <;> rfl

theorem exec_blockLatencyClose_append (closers more : List (CollectorProgram (Option GoString)))
    (held : Holdings) :
    (blockLatencyClose (closers ++ more)).exec (CollectorOp.interpret fault releases) held =
      match (blockLatencyClose closers).exec (CollectorOp.interpret fault releases) held with
      | (some err, next) => (some err, next)
      | (.none, next) =>
        (blockLatencyClose more).exec (CollectorOp.interpret fault releases) next := by
  induction closers generalizing held with
  | nil => rfl
  | cons closer closers ih =>
      rw [List.cons_append, exec_blockLatencyClose_cons, exec_blockLatencyClose_cons]
      rcases closer.exec (CollectorOp.interpret fault releases) held with ⟨_ | err, next⟩
      · exact ih next
      · rfl

/-- Closing groups in turn is closing all their members in turn. -/
theorem exec_blockLatencyClose_groups (groups : List (List (CollectorProgram (Option GoString))))
    (held : Holdings) :
    (blockLatencyClose (groups.map blockLatencyClose)).exec
        (CollectorOp.interpret fault releases) held =
      (blockLatencyClose groups.flatten).exec (CollectorOp.interpret fault releases) held := by
  induction groups generalizing held with
  | nil => rfl
  | cons group groups ih =>
      rw [List.map_cons, List.flatten_cons, exec_blockLatencyClose_cons,
        exec_blockLatencyClose_append]
      rcases (blockLatencyClose group).exec (CollectorOp.interpret fault releases) held with
        ⟨_ | err, next⟩
      · exact ih next
      · rfl

theorem exec_closeObjects (links : List Tracepoint) :
    (closeObjects.exec (CollectorOp.interpret fault releases) ⟨links, closeOrder⟩).2 =
      ⟨links, leftOpen fault releases closeOrder⟩ := by
  have inTurn := exec_blockLatencyClose_groups fault releases
    [[request (.closeObject .traceRqComplete), request (.closeObject .traceRqIssue)],
      [request (.closeObject .ioLatencyHist), request (.closeObject .startTimes)]]
    ⟨links, closeOrder⟩
  have each := exec_closeEach fault releases closeOrder links
  exact congrArg Prod.snd (inTurn.trans each)

/-- Links are closed whether or not an earlier one could be closed. -/
theorem exec_closeLinks (kept links : List Tracepoint) (distinct : (kept ++ links).Nodup)
    (objects : List BpfObject) :
    ((closeLinks links).exec (CollectorOp.interpret fault releases) ⟨kept ++ links, objects⟩).2 =
      ⟨kept ++ leftAttached fault releases links, objects⟩ := by
  induction links generalizing kept with
  | nil => rfl
  | cons link links ih =>
      rw [closeLinks, Program.exec_bind, exec_request, leftAttached, List.filter_cons, Stays]
      rcases List.nodup_append.mp distinct with ⟨_, _, disjoint⟩
      have notKept : link ∉ kept := fun present => disjoint link present link List.mem_cons_self rfl
      cases given : GivenUp releases (.closeLink link) (fault (.closeLink link)) with
      | true =>
          have erased : (kept ++ link :: links).erase link = kept ++ links := by
            rw [List.erase_append_right _ notKept, List.erase_cons_head]
          have fewer : (kept ++ links).Nodup :=
            distinct.sublist ((List.sublist_cons_self link links).append_left kept)
          simpa [CollectorOp.advance, given, erased, leftAttached] using ih kept fewer
      | false =>
          have regrouped : kept ++ link :: links = kept ++ [link] ++ links := by simp
          rw [regrouped] at distinct ⊢
          simpa [CollectorOp.advance, given, leftAttached] using ih (kept ++ [link]) distinct

theorem exec_close {c : Collector} (distinct : c.links.Nodup) :
    (c.close.exec (CollectorOp.interpret fault releases) ⟨c.links, closeOrder⟩).2 =
      ⟨leftAttached fault releases c.links, leftOpen fault releases closeOrder⟩ := by
  have detached := exec_closeLinks fault releases [] c.links distinct closeOrder
  rw [List.nil_append] at detached
  rw [Collector.close, Program.exec_bind, detached, Program.exec_bind]
  exact exec_closeObjects fault releases _

/-- The steps of `NewCollector`. -/
def setupSteps : List CollectorOp :=
  [.statBTF, .loadCollectionSpec, .loadAndAssign, .attach .blockRqIssue, .attach .blockRqComplete]

/-- The error of `NewCollector` when a step fails. -/
def setupError : CollectorOp → GoString → GoString
  | .statBTF, err => text "BTF not available at /sys/kernel/btf/vmlinux — requires Linux 5.8+ " ++
      text "with CONFIG_DEBUG_INFO_BTF=y: " ++ err
  | .loadCollectionSpec, err =>
      text "loading BPF objects: " ++ (text "can't load blockLatency: " ++ err)
  | .loadAndAssign, err => text "loading BPF objects: " ++ err
  | .attach .blockRqIssue, err => text "attaching block_rq_issue tracepoint: " ++ err
  | .attach .blockRqComplete, err => text "attaching block_rq_complete tracepoint: " ++ err
  | _, err => err

/-- The first steps of `NewCollector` have succeeded. -/
def SetupReaches (steps : ℕ) : Prop := ∀ step ∈ setupSteps.take steps, fault step = none

instance (steps : ℕ) : Decidable (SetupReaches fault steps) :=
  inferInstanceAs (Decidable (∀ step ∈ setupSteps.take steps, fault step = none))

/-- What a failing `NewCollector` leaves: links and objects that it has taken and could not give
back. -/
def leftBySetup : Holdings where
  links := if SetupReaches fault 4 then leftAttached fault releases [.blockRqIssue] else []
  objects := if SetupReaches fault 3 then leftOpen fault releases closeOrder else []

theorem exec_loadBlockLatencyObjects :
    loadBlockLatencyObjects.exec (CollectorOp.interpret fault releases) .none =
      match fault .loadCollectionSpec with
      | some err => (some (text "can't load blockLatency: " ++ err), .none)
      | .none => (fault .loadAndAssign, CollectorOp.advance releases .loadAndAssign
          (fault .loadAndAssign) .none) := by
  rw [loadBlockLatencyObjects, loadBlockLatency, Program.exec_bind, Program.exec_bind,
    exec_request]
  cases fault .loadCollectionSpec <;> rfl

theorem exec_newCollector :
    newCollector.exec (CollectorOp.interpret fault releases) .none =
      match setupSteps.findSome? fun step => (fault step).map (setupError step) with
      | .none => (.ok ⟨[.blockRqIssue, .blockRqComplete]⟩, .all)
      | some err => (.error err, leftBySetup fault releases) := by
  simp only [setupSteps, List.findSome?_cons, List.findSome?_nil, leftBySetup, SetupReaches]
  rw [newCollector, Program.exec_bind, exec_request]
  cases stat : fault .statBTF with
  | some err => simp [CollectorOp.advance, stat, setupError, Holdings.none]
  | none =>
      simp only [CollectorOp.advance, Program.exec_bind, exec_loadBlockLatencyObjects]
      cases spec : fault .loadCollectionSpec with
      | some err => simp [stat, spec, setupError, Holdings.none]
      | none =>
          cases assign : fault .loadAndAssign with
          | some err => simp [stat, spec, assign, setupError, Holdings.none]
          | none =>
              simp only [Program.exec_bind, exec_request]
              cases issue : fault (.attach .blockRqIssue) with
              | some err =>
                  rw [Program.exec_bind]
                  have closed := exec_closeObjects fault releases []
                  simpa [CollectorOp.advance, Holdings.none, stat, spec, assign, issue,
                    setupError] using closed
              | none =>
                  simp only [Program.exec_bind, exec_request]
                  cases complete : fault (.attach .blockRqComplete) with
                  | some err =>
                      have detached := exec_closeLinks fault releases [] [.blockRqIssue]
                        (by decide) closeOrder
                      rw [List.nil_append, List.nil_append] at detached
                      rw [Program.exec_bind, Program.exec_bind]
                      have closed := exec_closeObjects fault releases
                        (leftAttached fault releases [.blockRqIssue])
                      rw [← detached] at closed
                      simpa [CollectorOp.advance, Holdings.none, stat, spec, assign, issue,
                        complete, setupError] using closed
                  | none => rfl

theorem leftOpen_eq_nil_iff (objects : List BpfObject) :
    leftOpen fault releases objects = [] ↔
      (∀ object ∈ objects.dropLast, fault (.closeObject object) = none) ∧
        ∀ object ∈ objects.getLast?, GivenUp releases (.closeObject object)
          (fault (.closeObject object)) = true := by
  induction objects with
  | nil => simp [leftOpen]
  | cons object objects ih =>
      cases objects with
      | nil => cases failed : fault (.closeObject object) <;> simp [leftOpen, GivenUp, failed]
      | cons next objects =>
          rw [leftOpen, List.getLast?_cons_cons, List.dropLast_cons_cons, List.forall_mem_cons]
          cases failed : fault (.closeObject object) with
          | none => simpa using ih
          | some err => cases releases (.closeObject object) <;> simp

/-- **The collector gives back what it takes**, as far as it can be closed. `NewCollector` ends
with everything attached, or with the error of the first step that fails. Whether it fails or the
collector is closed later, the links that stay are those whose own `Close` gives nothing back, and
the objects that stay are those from the first one on whose `Close` fails. -/
theorem collector_gives_back :
    newCollector.exec (CollectorOp.interpret fault releases) .none =
      (match setupSteps.findSome? fun step => (fault step).map (setupError step) with
        | .none => (.ok ⟨[.blockRqIssue, .blockRqComplete]⟩, .all)
        | some err => (.error err, leftBySetup fault releases)) ∧
      ((Collector.mk [.blockRqIssue, .blockRqComplete]).close.exec
        (CollectorOp.interpret fault releases) .all).2 =
          ⟨leftAttached fault releases [.blockRqIssue, .blockRqComplete],
            leftOpen fault releases closeOrder⟩ ∧
      (leftOpen fault releases closeOrder = [] ↔
        (∀ object ∈ closeOrder.dropLast, fault (.closeObject object) = .none) ∧
          GivenUp releases (.closeObject .startTimes) (fault (.closeObject .startTimes))) := by
  refine ⟨exec_newCollector fault releases, ?_, ?_⟩
  · exact exec_close (c := ⟨[.blockRqIssue, .blockRqComplete]⟩) fault releases (by decide)
  · simpa [closeOrder] using leftOpen_eq_nil_iff fault releases closeOrder

/-- A program that cannot be closed keeps the other three objects loaded, even if it is itself
released. -/
example : leftOpen (fun operation => if operation = .closeObject .traceRqComplete then
    some (text "EBADF") else none) (fun _ => true) closeOrder =
      [.traceRqIssue, .ioLatencyHist, .startTimes] := by
  decide

end Lifecycle

end Sysmon.Ebpf
