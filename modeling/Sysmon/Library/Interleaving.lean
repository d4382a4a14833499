import Mathlib.Data.List.Basic
import Sysmon.Library.Machine
import Sysmon.Library.Program

/-!
# Interleaved programs

A `Pool` holds one program per thread and a state they share. A step names a
thread and performs the next operation of its program atomically; a finished
thread takes no more steps. Every run of `Pool.step` is thus one interleaving
of the programs, and the labels of the run are its schedule. A label also
carries an input from the environment, such as the time of the step.
-/

universe u v w x y z

/-- An operation together with the answer it received. -/
structure Performed {Op : Type u} (Answer : Op → Type v) where
  operation : Op
  answer : Answer operation

/-- Programs running side by side over a shared state. -/
structure Pool (Thread : Type y) {Op : Type u} (Answer : Op → Type v) (Result : Type w)
    (State : Type x) where
  programs : Thread → Program Answer Result
  shared : State

namespace Pool

variable {Thread : Type y} [DecidableEq Thread] {Op : Type u} {Answer : Op → Type v}
  {Result : Type w} {State : Type x} {Input : Type z}

/-- One atomic step: the named thread performs its next operation. -/
def step (interpret : Input → (operation : Op) → State → Answer operation × State) :
    Machine (Pool Thread Answer Result State) (Thread × Input) (Performed Answer) :=
  fun pool label =>
    match pool.programs label.1 with
    | .done _ => none
    | .call operation next =>
      let outcome := interpret label.2 operation pool.shared
      some (⟨operation, outcome.1⟩,
        { programs := Function.update pool.programs label.1 (next outcome.1)
          shared := outcome.2 })

variable {interpret : Input → (operation : Op) → State → Answer operation × State}

theorem step_of_call {pool : Pool Thread Answer Result State} {thread : Thread} {input : Input}
    {operation : Op} {next : Answer operation → Program Answer Result}
    (program : pool.programs thread = .call operation next) :
    step interpret pool (thread, input) =
      some (⟨operation, (interpret input operation pool.shared).1⟩,
        { programs := Function.update pool.programs thread
            (next (interpret input operation pool.shared).1)
          shared := (interpret input operation pool.shared).2 }) := by
  simp [step, program]

theorem step_eq_some {pool final : Pool Thread Answer Result State} {thread : Thread}
    {input : Input} {performed : Performed Answer} :
    step interpret pool (thread, input) = some (performed, final) ↔
      ∃ operation next, pool.programs thread = .call operation next ∧
        performed = ⟨operation, (interpret input operation pool.shared).1⟩ ∧
        final = { programs := Function.update pool.programs thread
                    (next (interpret input operation pool.shared).1)
                  shared := (interpret input operation pool.shared).2 } := by
  constructor
  · intro stepped
    cases program : pool.programs thread with
    | done result => simp [step, program] at stepped
    | call operation next =>
        rw [step_of_call program] at stepped
        simp only [Option.some.injEq, Prod.mk.injEq] at stepped
        exact ⟨operation, next, rfl, stepped.1.symm, stepped.2.symm⟩
  · rintro ⟨operation, next, program, rfl, rfl⟩
    exact step_of_call program

theorem programs_of_not_scheduled {pool final : Pool Thread Answer Result State}
    {schedule : List (Thread × Input)} {trace : List ((Thread × Input) × Performed Answer)}
    {thread : Thread} (idle : ∀ label ∈ schedule, label.1 ≠ thread)
    (ran : (step interpret).run pool schedule = some (trace, final)) :
    final.programs thread = pool.programs thread := by
  induction schedule generalizing pool trace with
  | nil =>
      rw [(Machine.run_nil_eq_some.mp ran).2]
  | cons label schedule ih =>
      rcases Machine.run_cons_eq_some.mp ran with ⟨performed, middle, rest, stepped, ranRest, _⟩
      rcases step_eq_some.mp stepped with ⟨operation, next, _, _, rfl⟩
      rw [ih (fun other present => idle other (List.mem_cons_of_mem label present)) ranRest]
      exact Function.update_of_ne (idle label List.mem_cons_self).symm _ _

section Solo

variable {pool final : Pool Thread Answer Result State} {thread : Thread}
  {schedule : List (Thread × Input)} {trace : List ((Thread × Input) × Performed Answer)}

/-- A thread that runs alone until it is finished first performs its next operation. -/
theorem run_solo_call {operation : Op} {next : Answer operation → Program Answer Result}
    {result : Result} (own : ∀ label ∈ schedule, label.1 = thread)
    (program : pool.programs thread = .call operation next)
    (finished : final.programs thread = .done result)
    (ran : (step interpret).run pool schedule = some (trace, final)) :
    ∃ input rest restTrace, (∀ label ∈ rest, label.1 = thread) ∧
      trace = ((thread, input), ⟨operation, (interpret input operation pool.shared).1⟩) ::
        restTrace ∧
      (step interpret).run
        { programs := Function.update pool.programs thread
            (next (interpret input operation pool.shared).1)
          shared := (interpret input operation pool.shared).2 } rest = some (restTrace, final) := by
  cases schedule with
  | nil =>
      rw [(Machine.run_nil_eq_some.mp ran).2, program] at finished
      cases finished
  | cons label rest =>
      rcases label with ⟨other, input⟩
      have same : other = thread := own _ List.mem_cons_self
      subst same
      rcases Machine.run_cons_eq_some.mp ran with
        ⟨performed, middle, restTrace, stepped, ranRest, rfl⟩
      rw [step_of_call program, Option.some.injEq, Prod.mk.injEq] at stepped
      rcases stepped with ⟨rfl, rfl⟩
      exact ⟨input, rest, restTrace,
        fun label present => own label (List.mem_cons_of_mem _ present), rfl, ranRest⟩

theorem run_solo_done {result : Result} (own : ∀ label ∈ schedule, label.1 = thread)
    (program : pool.programs thread = .done result)
    (ran : (step interpret).run pool schedule = some (trace, final)) :
    trace = [] ∧ final = pool := by
  cases schedule with
  | nil =>
      exact Machine.run_nil_eq_some.mp ran
  | cons label rest =>
      rcases Machine.run_cons_eq_some.mp ran with ⟨performed, middle, restTrace, stepped, _, _⟩
      rcases step_eq_some.mp stepped with ⟨operation, next, unfinished, _, _⟩
      rw [own label List.mem_cons_self, program] at unfinished
      cases unfinished

end Solo

/-- Two operations can be exchanged in a state: neither notices the other, and the order does
not matter for the state they leave. -/
structure Exchangeable (interpret : Input → (operation : Op) → State → Answer operation × State)
    (state : State) (first second : Op) (firstInput secondInput : Input) : Prop where
  first_answer : (interpret firstInput first (interpret secondInput second state).2).1 =
    (interpret firstInput first state).1
  second_answer : (interpret secondInput second (interpret firstInput first state).2).1 =
    (interpret secondInput second state).1
  final_state : (interpret firstInput first (interpret secondInput second state).2).2 =
    (interpret secondInput second (interpret firstInput first state).2).2

theorem step_exchange {pool middle final : Pool Thread Answer Result State}
    {first second : Thread} {firstInput secondInput : Input}
    {firstPerformed secondPerformed : Performed Answer} (different : first ≠ second)
    (exchangeable : ∀ {firstOperation secondOperation firstNext secondNext},
      pool.programs first = .call firstOperation firstNext →
      pool.programs second = .call secondOperation secondNext →
      Exchangeable interpret pool.shared firstOperation secondOperation firstInput secondInput)
    (firstStep : step interpret pool (first, firstInput) = some (firstPerformed, middle))
    (secondStep : step interpret middle (second, secondInput) = some (secondPerformed, final)) :
    ∃ other, step interpret pool (second, secondInput) = some (secondPerformed, other) ∧
      step interpret other (first, firstInput) = some (firstPerformed, final) := by
  rcases step_eq_some.mp firstStep with ⟨firstOperation, firstNext, firstProgram, rfl, rfl⟩
  rcases step_eq_some.mp secondStep with ⟨secondOperation, secondNext, secondProgram, rfl, rfl⟩
  dsimp only at secondProgram
  rw [Function.update_of_ne different.symm] at secondProgram
  have exchange := exchangeable firstProgram secondProgram
  refine ⟨_, by rw [step_of_call secondProgram, exchange.second_answer], ?_⟩
  have firstStill : Function.update pool.programs second
      (secondNext (interpret secondInput secondOperation pool.shared).1) first =
        .call firstOperation firstNext := by
    rw [Function.update_of_ne different, firstProgram]
  rw [step_of_call firstStill]
  simp only [exchange.first_answer, exchange.second_answer, exchange.final_state,
    Function.update_comm different]

/-! ## Serial schedules -/

section Serial

variable {Item : Type*}

private theorem eq_filter_append_filter {selects : Item → Prop} [DecidablePred selects]
    {items : List Item}
    (sorted : items.Pairwise fun first second => selects second → selects first) :
    items = items.filter (fun item => selects item) ++
      items.filter (fun item => ¬selects item) := by
  induction items with
  | nil => rfl
  | cons item items ih =>
      rcases List.pairwise_cons.mp sorted with ⟨itemFirst, sortedItems⟩
      by_cases selected : selects item
      · rw [List.filter_cons_of_pos (by simpa using selected),
          List.filter_cons_of_neg (by simpa using selected), List.cons_append,
          ← ih sortedItems]
      · have noneSelected : items.filter (fun item => selects item) = [] := by
          rw [List.filter_eq_nil_iff]
          intro other present isSelected
          exact selected (itemFirst other present (by simpa using isSelected))
        have allOthers : items.filter (fun item => ¬selects item) = items := by
          rw [List.filter_eq_self]
          intro other present
          have notSelected : ¬selects other := by
            intro isSelected
            exact selected (itemFirst other present isSelected)
          simpa using notSelected
        rw [List.filter_cons_of_neg (by simpa using selected), noneSelected,
          List.filter_cons_of_pos (by simpa using selected), allOthers, List.nil_append]

/-- No item of the second owner comes before an item of the first. -/
def Precedes (owner : Item → Thread) (items : List Item) (first second : Thread) : Prop :=
  items.Pairwise fun item other => owner item = second → owner other ≠ first

instance (owner : Item → Thread) (items : List Item) (first second : Thread) :
    Decidable (Precedes owner items first second) :=
  inferInstanceAs (Decidable (items.Pairwise _))

/-- Items whose owners do not overlap are the blocks of their owners, one after the other. -/
theorem eq_flatMap_filter {owner : Item → Thread} {items : List Item} {order : List Thread}
    (covered : ∀ item ∈ items, owner item ∈ order) (nodup : order.Nodup)
    (separate : order.Pairwise (Precedes owner items)) :
    items = order.flatMap fun thread => items.filter fun item => owner item = thread := by
  induction order generalizing items with
  | nil =>
      cases items with
      | nil => rfl
      | cons item items => simpa using covered item List.mem_cons_self
  | cons thread order ih =>
      rcases List.pairwise_cons.mp separate with ⟨threadFirst, separateRest⟩
      rcases List.nodup_cons.mp nodup with ⟨notLater, nodupRest⟩
      have sorted : items.Pairwise
          fun first second => owner second = thread → owner first = thread := by
        rw [List.pairwise_iff_getElem]
        intro i j iLt jLt before ownerSecond
        rcases List.mem_cons.mp (covered items[i] (List.getElem_mem iLt)) with own | later
        · exact own
        · have ordered := List.pairwise_iff_getElem.mp (threadFirst _ later) i j iLt jLt before
          exact absurd ownerSecond (ordered rfl)
      let others := items.filter fun item => ¬owner item = thread
      have coveredOthers : ∀ item ∈ others, owner item ∈ order := by
        intro item present
        rcases List.mem_filter.mp present with ⟨isItem, isOther⟩
        exact (List.mem_cons.mp (covered item isItem)).resolve_left (by simpa using isOther)
      have separateOthers : order.Pairwise (Precedes owner others) :=
        separateRest.imp fun precedes => precedes.sublist List.filter_sublist
      have sameBlocks : ∀ later ∈ order, others.filter (fun item => owner item = later) =
          items.filter fun item => owner item = later := by
        intro later isLater
        have different : later ≠ thread := by
          rintro rfl
          exact notLater isLater
        rw [List.filter_filter]
        apply List.filter_congr
        intro item _
        by_cases own : owner item = later
        · simp [own, different]
        · simp [own]
      calc items = items.filter (fun item => owner item = thread) ++ others :=
            eq_filter_append_filter sorted
        _ = items.filter (fun item => owner item = thread) ++
              order.flatMap fun later => others.filter fun item => owner item = later := by
            rw [← ih coveredOthers nodupRest separateOthers]
        _ = _ := by
            rw [List.flatMap_cons]
            congr 1
            exact List.flatMap_congr sameBlocks

variable {Class : Type*} [DecidableEq Class] {Output : Type*} {classOf : Thread → Class}
  {machine : Machine State (Thread × Input) Output} {invariant : State → Prop}
  {allowed : Thread × Input → Prop} {schedule : List (Thread × Input)} {order : List Thread}

private theorem filter_blocks (nodup : order.Nodup)
    (members : ∀ label ∈ schedule, label.1 ∈ order)
    (keeps : order.Pairwise fun first second =>
      classOf first = classOf second → Precedes Prod.fst schedule first second) (cls : Class) :
    schedule.filter (fun label => classOf label.1 = cls) =
      (order.flatMap fun thread => schedule.filter fun label => label.1 = thread).filter
        fun label => classOf label.1 = cls := by
  have ownBlock : ∀ thread, (schedule.filter fun label => classOf label.1 = cls).filter
      (fun label => label.1 = thread) =
        (schedule.filter fun label => label.1 = thread).filter
          fun label => classOf label.1 = cls := by
    intro thread
    exact List.filter_comm _ _ _
  have foreignBlock : ∀ thread, classOf thread ≠ cls →
      (schedule.filter fun label => label.1 = thread).filter
        (fun label => classOf label.1 = cls) = [] := by
    intro thread foreign
    simp only [List.filter_eq_nil_iff, List.mem_filter, decide_eq_true_eq]
    rintro label ⟨_, rfl⟩
    exact foreign
  have separate : (order.filter fun thread => classOf thread = cls).Pairwise
      (Precedes Prod.fst (schedule.filter fun label => classOf label.1 = cls)) := by
    rw [List.pairwise_filter]
    apply keeps.imp
    intro first second precedes firstClass secondClass
    simp only [decide_eq_true_eq] at firstClass secondClass
    exact (precedes (firstClass.trans secondClass.symm)).sublist List.filter_sublist
  have blocks : schedule.filter (fun label => classOf label.1 = cls) =
      (order.filter fun thread => classOf thread = cls).flatMap fun thread =>
        (schedule.filter fun label => classOf label.1 = cls).filter
          fun label => label.1 = thread := by
    apply eq_flatMap_filter _ (nodup.filter _) separate
    intro label present
    rcases List.mem_filter.mp present with ⟨scheduled, ofClass⟩
    exact List.mem_filter.mpr ⟨members label scheduled, ofClass⟩
  rw [blocks, List.filter_flatMap]
  simp only [ownBlock]
  clear blocks separate members keeps nodup
  induction order with
  | nil => rfl
  | cons thread order ih =>
      by_cases own : classOf thread = cls
      · rw [List.filter_cons_of_pos (by simpa using own), List.flatMap_cons, List.flatMap_cons, ih]
      · rw [List.filter_cons_of_neg (by simpa using own), List.flatMap_cons,
          foreignBlock thread own, ih, List.nil_append]

omit [DecidableEq Thread] [DecidableEq Class] in
/-- An order that keeps the order of each class lists threads of one class as the schedule does. -/
theorem pairwise_precedes (nodup : order.Nodup)
    (scheduled : ∀ thread ∈ order, ∃ label ∈ schedule, label.1 = thread)
    (separate : ∀ first ∈ schedule, ∀ second ∈ schedule, first.1 ≠ second.1 →
      classOf first.1 = classOf second.1 →
      Precedes Prod.fst schedule first.1 second.1 ∨ Precedes Prod.fst schedule second.1 first.1)
    (keeps : ∀ first second, classOf first = classOf second →
      Precedes Prod.fst schedule first second → Precedes id order first second) :
    order.Pairwise fun first second =>
      classOf first = classOf second → Precedes Prod.fst schedule first second := by
  rw [List.pairwise_iff_getElem]
  intro i j iLt jLt before sameClass
  rcases scheduled _ (List.getElem_mem iLt) with ⟨firstLabel, firstScheduled, isFirst⟩
  rcases scheduled _ (List.getElem_mem jLt) with ⟨secondLabel, secondScheduled, isSecond⟩
  have different : order[i] ≠ order[j] :=
    List.pairwise_iff_getElem.mp nodup i j iLt jLt before
  rw [← isFirst, ← isSecond] at different sameClass ⊢
  rcases separate _ firstScheduled _ secondScheduled different sameClass with precedes | reversed
  · exact precedes
  · have inOrder := keeps _ _ sameClass.symm reversed
    have notBefore := List.pairwise_iff_getElem.mp inOrder i j iLt jLt before
    exact absurd isSecond.symm (notBefore isFirst.symm)

variable (classOf) in
/-- If steps of different classes commute and threads of one class do not overlap, then the
threads might as well run one after the other, in any order that keeps the order of each class. -/
theorem run_serial
    (kept : ∀ state label output next, invariant state → allowed label →
      machine state label = some (output, next) → invariant next)
    (commutes : machine.CommutesAcross (fun label => classOf label.1) invariant allowed)
    {start final : State} {trace : List ((Thread × Input) × Output)} (holds : invariant start)
    (areAllowed : ∀ label ∈ schedule, allowed label) (nodup : order.Nodup)
    (members : ∀ label ∈ schedule, label.1 ∈ order)
    (keeps : order.Pairwise fun first second =>
      classOf first = classOf second → Precedes Prod.fst schedule first second)
    (ran : machine.run start schedule = some (trace, final)) :
    ∃ serial, machine.run start
        (order.flatMap fun thread => schedule.filter fun label => label.1 = thread) =
          some (serial, final) ∧
      ∀ cls, serial.filter (fun entry => classOf entry.1.1 = cls) =
        trace.filter fun entry => classOf entry.1.1 = cls :=
  Machine.run_of_filter_eq kept commutes holds areAllowed (filter_blocks nodup members keeps) ran

end Serial

end Pool
