import Mathlib.Tactic.TypeStar

/-!
# Programs over atomic operations

A `Program` is straight-line or branching code whose only effects are calls of
atomic operations: it is either done with a result, or it calls an operation
and continues with the answer. Programs form a monad, so code that reads and
writes shared objects is written in `do` notation and keeps the order of its
operations.

The same program has two meanings. `exec` runs it without interruption against
a state. `Sysmon.Library.Interleaving` runs many programs side by side, one
operation at a time.
-/

universe u v w x

/-- Code over operations `Op`, each of which answers a value of its own type. -/
inductive Program {Op : Type u} (Answer : Op → Type v) (Result : Type w) where
  | done (result : Result)
  | call (operation : Op) (next : Answer operation → Program Answer Result)

namespace Program

variable {Op : Type u} {Answer : Op → Type v} {Result Final : Type w} {State : Type x}

def bind : Program Answer Result → (Result → Program Answer Final) → Program Answer Final
  | done result, following => following result
  | call operation next, following => call operation fun answer => (next answer).bind following

instance : Monad (Program.{u, v, w} Answer) where
  pure := done
  bind := bind

def perform (operation : Op) : Program Answer (Answer operation) := call operation done

@[simp]
theorem pure_eq_done (result : Result) :
    (Pure.pure result : Program.{u, v, w} Answer Result) = done result := rfl

/-- Runs a program to its end without interruption. -/
def exec (interpret : (operation : Op) → State → Answer operation × State) :
    Program Answer Result → State → Result × State
  | done result, state => (result, state)
  | call operation next, state =>
    (next (interpret operation state).1).exec interpret (interpret operation state).2

section Exec

variable {interpret : (operation : Op) → State → Answer operation × State}

@[simp]
theorem exec_done (result : Result) (state : State) :
    (done result : Program Answer Result).exec interpret state = (result, state) := rfl

@[simp]
theorem exec_call (operation : Op) (next : Answer operation → Program Answer Result)
    (state : State) :
    (call operation next).exec interpret state =
      (next (interpret operation state).1).exec interpret (interpret operation state).2 := rfl

theorem exec_bind (program : Program Answer Result) (following : Result → Program Answer Final)
    (state : State) :
    (program >>= following).exec interpret state =
      (following (program.exec interpret state).1).exec interpret
        (program.exec interpret state).2 := by
  induction program generalizing state with
  | done result => rfl
  | call operation next ih => exact ih _ _

/-- A program whose operations work on a part of the state runs on the part alone. -/
theorem exec_focus {Part : Type*} {onPart : (operation : Op) → Part → Answer operation × Part}
    (put : Part → State)
    (focuses : ∀ operation part, interpret operation (put part) =
      ((onPart operation part).1, put (onPart operation part).2))
    (program : Program Answer Result) (part : Part) :
    program.exec interpret (put part) =
      ((program.exec onPart part).1, put (program.exec onPart part).2) := by
  induction program generalizing part with
  | done result => rfl
  | call operation next ih =>
      rw [exec_call, exec_call, focuses]
      exact ih _ _

end Exec

def IsDone : Program Answer Result → Prop
  | done _ => True
  | call _ _ => False

instance : DecidablePred (@IsDone Op Answer Result)
  | done _ => isTrue trivial
  | call _ _ => isFalse id

theorem isDone_iff {program : Program Answer Result} :
    program.IsDone ↔ ∃ result, program = done result := by
  cases program <;> simp [IsDone]

/-- Every operation the program may ever call is allowed. -/
def Calls (allowed : Op → Prop) : Program Answer Result → Prop
  | done _ => True
  | call operation next => allowed operation ∧ ∀ answer, (next answer).Calls allowed

end Program
