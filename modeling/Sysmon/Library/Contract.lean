import Mathlib.Logic.Equiv.Basic
import Sysmon.Library.Interleaving

/-!
# Contracts of programs

A contract says what a program may do and what it may rely on. For every
operation it tells in which states of a ghost variable the operation is
allowed, which answers are to be expected, and how an answer changes the ghost
variable. A program meets a contract with a postcondition if, as long as all
answers are expected, it performs allowed operations only and ends in a state
that satisfies the postcondition.

The rules follow the structure of programs. A function has one lemma that says
how it meets the contract, and its callers use the lemma through `Meets.bind`.
-/

universe u v w x y

/-- What a program may do, and what it may rely on. -/
structure Contract {Op : Type u} (Answer : Op → Type v) (Ghost : Type x) where
  allowed : Op → Ghost → Prop
  expected : (operation : Op) → Answer operation → Prop
  advance : (operation : Op) → Answer operation → Ghost → Ghost

/-- A contract as programs over other operations see it. -/
def Contract.comap {Op Op' : Type u} {Answer : Op → Type v} {Answer' : Op' → Type v}
    {Ghost : Type x} (onOp : Op → Op')
    (onAnswer : ∀ operation, Answer' (onOp operation) ≃ Answer operation)
    (contract : Contract Answer' Ghost) : Contract Answer Ghost where
  allowed operation := contract.allowed (onOp operation)
  expected operation answer :=
    contract.expected (onOp operation) ((onAnswer operation).symm answer)
  advance operation answer :=
    contract.advance (onOp operation) ((onAnswer operation).symm answer)

namespace Program

variable {Op : Type u} {Answer : Op → Type v} {Result Final : Type w} {Ghost : Type x}

/-- The program keeps the contract from the ghost state on, and ends as `post` says. -/
def Meets (contract : Contract Answer Ghost) (post : Result → Ghost → Prop) :
    Program Answer Result → Ghost → Prop
  | done result, ghost => post result ghost
  | call operation next, ghost =>
    contract.allowed operation ghost ∧ ∀ answer, contract.expected operation answer →
      (next answer).Meets contract post (contract.advance operation answer ghost)

variable {contract : Contract Answer Ghost} {post post' : Result → Ghost → Prop} {ghost : Ghost}

@[simp]
theorem meets_done {result : Result} :
    (done result : Program Answer Result).Meets contract post ghost ↔ post result ghost :=
  Iff.rfl

theorem meets_call {operation : Op} {next : Answer operation → Program Answer Result} :
    (call operation next).Meets contract post ghost ↔
      contract.allowed operation ghost ∧ ∀ answer, contract.expected operation answer →
        (next answer).Meets contract post (contract.advance operation answer ghost) :=
  Iff.rfl

theorem Meets.mono {program : Program Answer Result} (meets : program.Meets contract post ghost)
    (weaker : ∀ result final, post result final → post' result final) :
    program.Meets contract post' ghost := by
  induction program generalizing ghost with
  | done result => exact weaker result ghost meets
  | call operation next ih =>
      exact ⟨meets.1, fun answer isExpected => ih answer (meets.2 answer isExpected)⟩

theorem meets_bind {program : Program Answer Result} {following : Result → Program Answer Final}
    {post : Final → Ghost → Prop} :
    (program >>= following).Meets contract post ghost ↔
      program.Meets contract
        (fun result middle => (following result).Meets contract post middle) ghost := by
  induction program generalizing ghost with
  | done result => exact Iff.rfl
  | call operation next ih =>
      exact and_congr_right fun _ => forall_congr' fun answer => imp_congr_right fun _ =>
        ih answer

/-- A call of a function is followed by what its postcondition allows. -/
theorem Meets.bind {program : Program Answer Result} {following : Result → Program Answer Final}
    {middle : Result → Ghost → Prop} {post : Final → Ghost → Prop}
    (meets : program.Meets contract middle ghost)
    (continues : ∀ result next, middle result next →
      (following result).Meets contract post next) :
    (program >>= following).Meets contract post ghost :=
  meets_bind.mpr (meets.mono continues)

theorem meets_perform_bind {Answer : Op → Type w} {contract : Contract Answer Ghost}
    {operation : Op} {following : Answer operation → Program Answer Result}
    {post : Result → Ghost → Prop} :
    (perform operation >>= following).Meets contract post ghost ↔
      contract.allowed operation ghost ∧ ∀ answer, contract.expected operation answer →
        (following answer).Meets contract post (contract.advance operation answer ghost) :=
  Iff.rfl

/-- A program whose operations are all allowed and leave the ghost variable alone. -/
theorem meets_of_unchanged (allowed : ∀ operation, contract.allowed operation ghost)
    (unchanged : ∀ operation answer, contract.advance operation answer ghost = ghost)
    (program : Program Answer Result) :
    program.Meets contract (fun _ final => final = ghost) ghost := by
  induction program with
  | done result => rfl
  | call operation next ih =>
      refine ⟨allowed operation, fun answer _ => ?_⟩
      rw [unchanged]
      exact ih answer

section Translate

variable {Op' : Type u} {Answer' : Op' → Type v} {State : Type y} (onOp : Op → Op')
  (onAnswer : ∀ operation, Answer' (onOp operation) ≃ Answer operation)

/-- The same program over operations of another kind. -/
def translate : Program Answer Result → Program Answer' Result
  | done result => done result
  | call operation next => call (onOp operation) fun answer =>
    (next (onAnswer operation answer)).translate

theorem meets_translate {contract : Contract Answer' Ghost} {program : Program Answer Result} :
    (program.translate onOp onAnswer).Meets contract post ghost ↔
      program.Meets (contract.comap onOp onAnswer) post ghost := by
  induction program generalizing ghost with
  | done result => exact Iff.rfl
  | call operation next ih =>
      refine and_congr_right fun _ => (onAnswer operation).forall_congr fun {answer} => ?_
      simp only [Contract.comap, Equiv.symm_apply_apply]
      exact imp_congr_right fun _ => ih _

theorem exec_translate (interpret : (operation : Op') → State → Answer' operation × State)
    (program : Program Answer Result) (state : State) :
    (program.translate onOp onAnswer).exec interpret state =
      program.exec (fun operation state =>
        ((onAnswer operation) (interpret (onOp operation) state).1,
          (interpret (onOp operation) state).2)) state := by
  induction program generalizing state with
  | done result => rfl
  | call operation next ih => exact ih _ _

end Translate

end Program

namespace Pool

variable {Thread : Type*} [DecidableEq Thread] {Op : Type u} {Answer : Op → Type v}
  {Result : Type w} {State Input : Type*} {Ghost : Thread → Type x}
  {interpret : Input → (operation : Op) → State → Answer operation × State}
  {contract : ∀ thread, Contract Answer (Ghost thread)}
  {post : ∀ thread, Result → Ghost thread → Prop} {ghost : ∀ thread, Ghost thread}

/-- A thread that keeps its contract performs allowed operations, and all threads go on keeping
theirs. -/
theorem meets_step {pool next : Pool Thread Answer Result State} {thread : Thread} {input : Input}
    {performed : Performed Answer}
    (meets : ∀ thread, (pool.programs thread).Meets (contract thread) (post thread) (ghost thread))
    (stepped : step interpret pool (thread, input) = some (performed, next))
    (isExpected : (contract thread).expected performed.operation performed.answer) :
    (contract thread).allowed performed.operation (ghost thread) ∧
      ∀ other, (next.programs other).Meets (contract other) (post other)
        (Function.update ghost thread ((contract thread).advance performed.operation
          performed.answer (ghost thread)) other) := by
  rcases step_eq_some.mp stepped with ⟨operation, following, program, rfl, rfl⟩
  have kept := meets thread
  rw [program] at kept
  refine ⟨kept.1, fun other => ?_⟩
  by_cases same : other = thread
  · subst same
    simpa using kept.2 _ isExpected
  · simpa [Function.update_of_ne same] using meets other

end Pool
