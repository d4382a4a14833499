import Sysmon.Library.Interleaving

/-!
# Parts of executions

The operations that a program has performed, with their answers, determine
what is left of it. If an environment has given the answers, then the rest of
the program goes on as the uninterrupted execution does, whatever else has
happened in between. In particular, what the program has logged so far is the
beginning of what it logs without interruption.
-/

universe u v w x

namespace Program

variable {Op : Type u} {Answer : Op → Type v} {Result : Type w} {Env : Type x}

/-- After the operations, `rest` is left of the program. -/
def Performs : Program Answer Result → List (Performed Answer) → Program Answer Result → Prop
  | program, [], rest => program = rest
  | program, performed :: own, rest =>
    ∃ next, program = call performed.operation next ∧ (next performed.answer).Performs own rest

theorem Performs.concat {program : Program Answer Result} {own : List (Performed Answer)}
    {operation : Op} {next : Answer operation → Program Answer Result}
    (performs : program.Performs own (call operation next)) (answer : Answer operation) :
    program.Performs (own ++ [⟨operation, answer⟩]) (next answer) := by
  induction own generalizing program with
  | nil => exact ⟨next, performs, rfl⟩
  | cons performed own ih =>
      rcases performs with ⟨following, isCall, continues⟩
      exact ⟨following, isCall, ih continues⟩

section Environment

variable (respond : (operation : Op) → Env → Answer operation × Env)

/-- The environment after the operations. -/
def after (env : Env) (own : List (Performed Answer)) : Env :=
  own.foldl (fun env performed => (respond performed.operation env).2) env

/-- The answers are those of the environment. -/
def AnsweredBy : Env → List (Performed Answer) → Prop
  | _, [] => True
  | env, performed :: own =>
    performed.answer = (respond performed.operation env).1 ∧
      AnsweredBy (respond performed.operation env).2 own

variable {respond} {program rest : Program Answer Result} {own : List (Performed Answer)}
  {env : Env}

/-- What is left of the program goes on as the uninterrupted execution does. -/
theorem exec_eq_of_performs (performs : program.Performs own rest)
    (answered : AnsweredBy respond env own) :
    program.exec respond env = rest.exec respond (after respond env own) := by
  induction own generalizing program env with
  | nil => exact congrArg (exec respond · env) performs
  | cons performed own ih =>
      rcases performs with ⟨next, rfl, continues⟩
      rw [exec_call, ← answered.1]
      exact ih continues answered.2

section Log

variable {Item : Type*} (log : Env → List Item) (logged : Performed Answer → Option Item)
  (logs : ∀ operation env, log (respond operation env).2 =
    log env ++ (logged ⟨operation, (respond operation env).1⟩).toList)

include logs

theorem log_after (answered : AnsweredBy respond env own) :
    log (after respond env own) = log env ++ own.filterMap logged := by
  induction own generalizing env with
  | nil => exact (List.append_nil _).symm
  | cons performed own ih =>
      rcases performed with ⟨operation, answer⟩
      rcases answered with ⟨isAnswer, continues⟩
      dsimp only at isAnswer continues
      subst isAnswer
      have rest := ih continues
      rw [logs, List.append_assoc] at rest
      change log (after respond (respond operation env).2 own) = _
      rw [rest]
      cases isLogged : logged ⟨operation, (respond operation env).1⟩ <;> simp [isLogged]

theorem log_isPrefix_exec (program : Program Answer Result) (env : Env) :
    log env <+: log (program.exec respond env).2 := by
  induction program generalizing env with
  | done result => exact List.prefix_refl _
  | call operation next ih =>
      have grown : log env <+: log (respond operation env).2 := by
        rw [logs]
        exact List.prefix_append _ _
      exact grown.trans (ih _ _)

/-- What has been logged is the beginning of what the uninterrupted execution logs. -/
theorem logged_isPrefix (performs : program.Performs own rest)
    (answered : AnsweredBy respond env own) :
    log env ++ own.filterMap logged <+: log (program.exec respond env).2 := by
  rw [exec_eq_of_performs performs answered, ← log_after log logged logs answered]
  exact log_isPrefix_exec log logged logs rest _

theorem logged_of_isDone (performs : program.Performs own rest) (isDone : rest.IsDone)
    (answered : AnsweredBy respond env own) :
    log env ++ own.filterMap logged = log (program.exec respond env).2 := by
  rcases isDone_iff.mp isDone with ⟨result, rfl⟩
  rw [exec_eq_of_performs performs answered, ← log_after log logged logs answered]
  rfl

end Log

end Environment

end Program

namespace Pool

variable {Thread : Type*} [DecidableEq Thread] {Op : Type u} {Answer : Op → Type v}
  {Result : Type w} {State Input : Type*}
  {interpret : Input → (operation : Op) → State → Answer operation × State}

theorem performs_step {pool next : Pool Thread Answer Result State} {thread : Thread}
    {input : Input} {performed : Performed Answer} {program : Program Answer Result}
    {own : List (Performed Answer)} (performs : program.Performs own (pool.programs thread))
    (stepped : step interpret pool (thread, input) = some (performed, next)) :
    program.Performs (own ++ [performed]) (next.programs thread) := by
  rcases step_eq_some.mp stepped with ⟨operation, following, isCall, rfl, rfl⟩
  rw [isCall] at performs
  simpa using performs.concat _

theorem programs_of_step_of_ne {pool next : Pool Thread Answer Result State}
    {thread other : Thread} {input : Input} {performed : Performed Answer}
    (different : other ≠ thread)
    (stepped : step interpret pool (thread, input) = some (performed, next)) :
    next.programs other = pool.programs other := by
  rcases step_eq_some.mp stepped with ⟨operation, following, _, _, rfl⟩
  exact Function.update_of_ne different _ _

end Pool
