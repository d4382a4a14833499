import Mathlib.Data.List.Induction
import Mathlib.Tactic.TypeStar

/-!
# Labelled machines

A `Machine` reads labels. A label is either refused in the current state or
leads to an output and a next state. `run` consumes a list of labels and
returns the trace of labels with their outputs, and the final state.

Two facts about runs carry the developments built on this file.
`run_invariant` is the induction over a growing trace. `run_of_filter_eq`
says that the order of steps matters only inside a class of labels: if steps
of different classes commute, then rearranging a run without reordering any
class leads to the same final state with the same outputs.
-/

universe u v w

/-- A deterministic machine with labelled, possibly refused steps and outputs. -/
abbrev Machine (State : Type u) (Label : Type v) (Output : Type w) :=
  State → Label → Option (Output × State)

namespace Machine

variable {State : Type u} {Label : Type v} {Output : Type w}

/-- Consumes the labels in order; the trace pairs each label with its output. -/
def run (machine : Machine State Label Output) :
    State → List Label → Option (List (Label × Output) × State)
  | state, [] => some ([], state)
  | state, label :: labels =>
    (machine state label).bind fun (output, next) =>
      (run machine next labels).map fun (trace, final) => ((label, output) :: trace, final)

variable {machine : Machine State Label Output}

@[simp]
theorem run_nil (state : State) : machine.run state [] = some ([], state) := rfl

theorem run_nil_eq_some {state final : State} {trace : List (Label × Output)} :
    machine.run state [] = some (trace, final) ↔ trace = [] ∧ final = state := by
  simp only [run_nil, Option.some.injEq, Prod.mk.injEq, eq_comm]

theorem run_cons_eq_some {state final : State} {label : Label} {labels : List Label}
    {trace : List (Label × Output)} :
    machine.run state (label :: labels) = some (trace, final) ↔
      ∃ output next rest, machine state label = some (output, next) ∧
        machine.run next labels = some (rest, final) ∧ trace = (label, output) :: rest := by
  simp only [run, Option.bind_eq_some_iff, Option.map_eq_some_iff, Prod.exists, Prod.mk.injEq]
  constructor
  · rintro ⟨output, next, stepped, rest, _, ran, rfl, rfl⟩
    exact ⟨output, next, rest, stepped, ran, rfl⟩
  · rintro ⟨output, next, rest, stepped, ran, rfl⟩
    exact ⟨output, next, stepped, rest, final, ran, rfl, rfl⟩

theorem run_append_eq_some {state final : State} {front back : List Label}
    {trace : List (Label × Output)} :
    machine.run state (front ++ back) = some (trace, final) ↔
      ∃ middle before after, machine.run state front = some (before, middle) ∧
        machine.run middle back = some (after, final) ∧ trace = before ++ after := by
  induction front generalizing state trace with
  | nil => simp
  | cons label front ih =>
      simp only [List.cons_append, run_cons_eq_some, ih]
      constructor
      · rintro ⟨output, next, _, stepped, ⟨middle, before, after, ranFront, ranBack, rfl⟩, rfl⟩
        exact ⟨middle, (label, output) :: before, after,
          ⟨output, next, before, stepped, ranFront, rfl⟩, ranBack, rfl⟩
      · rintro ⟨middle, _, after, ⟨output, next, before, stepped, ranFront, rfl⟩, ranBack, rfl⟩
        exact ⟨output, next, before ++ after, stepped,
          ⟨middle, before, after, ranFront, ranBack, rfl⟩, rfl⟩

theorem run_singleton_eq_some {state final : State} {label : Label}
    {trace : List (Label × Output)} :
    machine.run state [label] = some (trace, final) ↔
      ∃ output, machine state label = some (output, final) ∧ trace = [(label, output)] := by
  rw [run_cons_eq_some]
  constructor
  · rintro ⟨output, next, rest, stepped, ran, rfl⟩
    rcases run_nil_eq_some.mp ran with ⟨rfl, rfl⟩
    exact ⟨output, stepped, rfl⟩
  · rintro ⟨output, stepped, rfl⟩
    exact ⟨output, final, [], stepped, rfl, rfl⟩

theorem map_fst_trace {state final : State} {labels : List Label}
    {trace : List (Label × Output)} (ran : machine.run state labels = some (trace, final)) :
    trace.map Prod.fst = labels := by
  induction labels generalizing state trace with
  | nil =>
      rw [(run_nil_eq_some.mp ran).1, List.map_nil]
  | cons label labels ih =>
      rcases run_cons_eq_some.mp ran with ⟨output, next, rest, _, ranRest, rfl⟩
      simp [ih ranRest]

/-- If every step is a step of another machine under translated labels and outputs, then every run
is a run of that machine. -/
theorem run_map {ImageLabel : Type*} {ImageOutput : Type*}
    {image : Machine State ImageLabel ImageOutput} (onLabel : Label → ImageLabel)
    (onOutput : Output → ImageOutput)
    (translated : ∀ state label output next, machine state label = some (output, next) →
      image state (onLabel label) = some (onOutput output, next))
    {state final : State} {labels : List Label} {trace : List (Label × Output)}
    (ran : machine.run state labels = some (trace, final)) :
    image.run state (labels.map onLabel) =
      some (trace.map (Prod.map onLabel onOutput), final) := by
  induction labels generalizing state trace with
  | nil =>
      rcases run_nil_eq_some.mp ran with ⟨rfl, rfl⟩
      rfl
  | cons label labels ih =>
      rcases run_cons_eq_some.mp ran with ⟨output, next, rest, stepped, ranRest, rfl⟩
      exact run_cons_eq_some.mpr ⟨onOutput output, next, _, translated _ _ _ _ stepped,
        ih ranRest, rfl⟩

/-- A property of trace and state that every step keeps holds after every run. -/
theorem run_invariant {start : State} {motive : List (Label × Output) → State → Prop}
    (base : motive [] start)
    (kept : ∀ trace state label output next, motive trace state →
      machine state label = some (output, next) → motive (trace ++ [(label, output)]) next)
    {labels : List Label} {trace : List (Label × Output)} {final : State}
    (ran : machine.run start labels = some (trace, final)) : motive trace final := by
  induction labels using List.reverseRecOn generalizing trace final with
  | nil =>
      rcases run_nil_eq_some.mp ran with ⟨rfl, rfl⟩
      exact base
  | append_singleton labels label ih =>
      rcases run_append_eq_some.mp ran with ⟨middle, before, after, ranFront, ranBack, rfl⟩
      rcases run_singleton_eq_some.mp ranBack with ⟨output, stepped, rfl⟩
      exact kept before middle label output final (ih ranFront) stepped

/-- What the steps under labels of a kind keep holds after every run over such labels. -/
theorem run_kept {invariant : State → Prop} {allowed : Label → Prop}
    (kept : ∀ state label output next, invariant state → allowed label →
      machine state label = some (output, next) → invariant next)
    {start final : State} {labels : List Label} {trace : List (Label × Output)}
    (holds : invariant start) (areAllowed : ∀ label ∈ labels, allowed label)
    (ran : machine.run start labels = some (trace, final)) : invariant final := by
  induction labels generalizing start trace with
  | nil =>
      rcases run_nil_eq_some.mp ran with ⟨rfl, rfl⟩
      exact holds
  | cons label labels ih =>
      rcases run_cons_eq_some.mp ran with ⟨output, next, rest, stepped, ranRest, rfl⟩
      apply ih (kept _ _ _ _ holds (areAllowed label List.mem_cons_self) stepped) _ ranRest
      exact fun other present => areAllowed other (List.mem_cons_of_mem label present)

section Commutation

variable {Class : Type*} {classOf : Label → Class}
  {invariant : State → Prop} {allowed : Label → Prop}

/-- Steps of different classes can be exchanged: both orders are possible, lead to the same
state and produce the same outputs. -/
def CommutesAcross (machine : Machine State Label Output) (classOf : Label → Class)
    (invariant : State → Prop) (allowed : Label → Prop) : Prop :=
  ∀ state first second firstOutput secondOutput middle final, invariant state →
    allowed first → allowed second → classOf first ≠ classOf second →
    machine state first = some (firstOutput, middle) →
    machine middle second = some (secondOutput, final) →
    ∃ other, machine state second = some (secondOutput, other) ∧
      machine other first = some (firstOutput, final)

theorem run_move_front
    (kept : ∀ state label output next, invariant state → allowed label →
      machine state label = some (output, next) → invariant next)
    (commutes : machine.CommutesAcross classOf invariant allowed)
    {state final : State} {front back : List Label} {label : Label}
    {trace : List (Label × Output)} (holds : invariant state)
    (frontAllowed : ∀ other ∈ front, allowed other) (labelAllowed : allowed label)
    (foreign : ∀ other ∈ front, classOf other ≠ classOf label)
    (ran : machine.run state (front ++ label :: back) = some (trace, final)) :
    ∃ output before after, trace = before ++ (label, output) :: after ∧
      before.map Prod.fst = front ∧
      machine.run state (label :: (front ++ back)) =
        some ((label, output) :: (before ++ after), final) := by
  induction front generalizing state trace with
  | nil =>
      rcases run_cons_eq_some.mp ran with ⟨output, next, rest, _, _, rfl⟩
      exact ⟨output, [], rest, rfl, rfl, ran⟩
  | cons first front ih =>
      rcases run_cons_eq_some.mp ran with ⟨firstOutput, next, rest, stepped, ranRest, rfl⟩
      have firstAllowed := frontAllowed first List.mem_cons_self
      have moved := ih (kept _ _ _ _ holds firstAllowed stepped)
        (fun other present => frontAllowed other (List.mem_cons_of_mem first present))
        (fun other present => foreign other (List.mem_cons_of_mem first present)) ranRest
      rcases moved with ⟨output, before, after, rfl, beforeLabels, ranMoved⟩
      rcases run_cons_eq_some.mp ranMoved with ⟨_, middle, _, labelStepped, ranTail, same⟩
      simp only [List.cons.injEq, Prod.mk.injEq, true_and] at same
      rcases same with ⟨rfl, rfl⟩
      rcases commutes state first label firstOutput output next middle holds firstAllowed
          labelAllowed (foreign first List.mem_cons_self) stepped labelStepped with
        ⟨other, labelFirst, firstSecond⟩
      refine ⟨output, (first, firstOutput) :: before, after, rfl, by simp [beforeLabels], ?_⟩
      rw [run_cons_eq_some]
      refine ⟨output, other, _, labelFirst, ?_, rfl⟩
      exact run_cons_eq_some.mpr ⟨firstOutput, middle, _, firstSecond, ranTail, rfl⟩

/-- The order of a run matters only inside the classes of labels: any rearrangement that keeps
each class in order is a run to the same state, with the same outputs class by class. -/
theorem run_of_filter_eq [DecidableEq Class]
    (kept : ∀ state label output next, invariant state → allowed label →
      machine state label = some (output, next) → invariant next)
    (commutes : machine.CommutesAcross classOf invariant allowed)
    {state final : State} {labels rearranged : List Label} {trace : List (Label × Output)}
    (holds : invariant state) (areAllowed : ∀ label ∈ labels, allowed label)
    (same : ∀ cls, labels.filter (classOf · = cls) = rearranged.filter (classOf · = cls))
    (ran : machine.run state labels = some (trace, final)) :
    ∃ trace', machine.run state rearranged = some (trace', final) ∧
      ∀ cls, trace'.filter (classOf ·.1 = cls) = trace.filter (classOf ·.1 = cls) := by
  induction rearranged generalizing state labels trace with
  | nil =>
      have empty : labels = [] := by
        cases labels with
        | nil => rfl
        | cons label labels => simpa using same (classOf label)
      subst empty
      exact ⟨trace, ran, fun _ => rfl⟩
  | cons label rest ih =>
      -- The first occurrence of the label's class in `labels` is the label itself.
      have headOfClass : labels.filter (classOf · = classOf label) =
          label :: rest.filter (classOf · = classOf label) := by
        simpa using same (classOf label)
      rcases List.filter_eq_cons_iff.mp headOfClass with
        ⟨front, back, rfl, foreign, _, backClass⟩
      have foreign' : ∀ other ∈ front, classOf other ≠ classOf label := by
        intro other present
        simpa using foreign other present
      rcases run_move_front kept commutes holds
          (fun other present => areAllowed other (List.mem_append_left _ present))
          (areAllowed label (by simp)) foreign' ran with
        ⟨output, before, after, rfl, beforeLabels, ranMoved⟩
      rcases run_cons_eq_some.mp ranMoved with ⟨_, next, _, stepped, ranRest, sameTrace⟩
      simp only [List.cons.injEq, Prod.mk.injEq, true_and] at sameTrace
      rcases sameTrace with ⟨rfl, rfl⟩
      have sameRest : ∀ cls,
          (front ++ back).filter (classOf · = cls) = rest.filter (classOf · = cls) := by
        intro cls
        have whole := same cls
        by_cases own : classOf label = cls
        · subst own
          rw [List.filter_append, backClass]
          simpa using foreign'
        · simpa [own] using whole
      have restAllowed : ∀ other ∈ front ++ back, allowed other := by
        intro other present
        apply areAllowed
        rcases List.mem_append.mp present with inFront | inBack
        · exact List.mem_append_left _ inFront
        · exact List.mem_append_right _ (List.mem_cons_of_mem _ inBack)
      have holdsNext := kept _ _ _ _ holds (areAllowed label (by simp)) stepped
      rcases ih holdsNext restAllowed sameRest ranRest with ⟨trace', ran', sameClasses⟩
      refine ⟨(label, output) :: trace',
        run_cons_eq_some.mpr ⟨output, next, trace', stepped, ran', rfl⟩, ?_⟩
      intro cls
      have beforeForeign : classOf label = cls → before.filter (classOf ·.1 = cls) = [] := by
        rintro rfl
        simp only [List.filter_eq_nil_iff, decide_eq_true_eq]
        intro entry present
        exact foreign' entry.1 (beforeLabels ▸ List.mem_map_of_mem present)
      by_cases own : classOf label = cls
      · have tail := sameClasses cls
        rw [List.filter_append, beforeForeign own, List.nil_append] at tail
        simp [own, beforeForeign own, tail]
      · have tail := sameClasses cls
        simpa [own] using tail

end Commutation

end Machine
