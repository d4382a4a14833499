import Mathlib.Data.Finset.Card
import Mathlib.Data.Finset.Range
import Mathlib.Data.List.Induction
import Mathlib.Data.List.Infix

/-!
# Histories of events

A history is the list of the events that have happened so far, oldest first.
This file gives the notions with which properties of runs are stated: `Along`,
for a condition that every event meets together with the events before it;
`Throughout`, for a condition on all prefixes; `count`, for the number of
events selected by a condition of the first kind; and `last`, for the most
recent event of a kind. Each comes with the equation for one more event at the
end, which is the form in which a run grows.
-/

namespace History

universe u v

variable {Event : Type u}

theorem concat_prefix_concat_iff {before history : List Event} {event newest : Event} :
    before ++ [event] <+: history ++ [newest] ↔
      before ++ [event] <+: history ∨ (before = history ∧ newest = event) := by
  rw [List.prefix_concat_iff]
  constructor
  · rintro (whole | shorter)
    · rcases List.append_inj' whole rfl with ⟨same, sameEvent⟩
      exact Or.inr ⟨same, (List.singleton_inj.mp sameEvent).symm⟩
    · exact Or.inl shorter
  · rintro (shorter | ⟨rfl, rfl⟩)
    · exact Or.inr shorter
    · exact Or.inl rfl

theorem getElem?_concat_eq_some_iff {history : List Event} {newest event : Event} {position : ℕ} :
    (history ++ [newest])[position]? = some event ↔
      history[position]? = some event ∨ (position = history.length ∧ newest = event) := by
  rcases Nat.lt_trichotomy position history.length with before | rfl | after
  · simp [List.getElem?_append_left before, before.ne]
  · simp
  · rw [List.getElem?_eq_none (by simp; omega), List.getElem?_eq_none after.le]
    simp [after.ne']

theorem getElem?_take_eq_some_iff {history : List Event} {position length : ℕ} {event : Event} :
    (history.take length)[position]? = some event ↔
      position < length ∧ history[position]? = some event := by
  rw [List.getElem?_take, Option.ite_none_right_eq_some]

/-- Every event of the history satisfies `ok` together with the events before it. -/
def Along (ok : List Event → Event → Prop) (history : List Event) : Prop :=
  ∀ position (inside : position < history.length),
    ok (history.take position) history[position]

instance (ok : List Event → Event → Prop) [∀ before, DecidablePred (ok before)]
    (history : List Event) : Decidable (Along ok history) :=
  inferInstanceAs (Decidable (∀ position (inside : position < history.length),
    ok (history.take position) history[position]))

@[simp]
theorem along_nil (ok : List Event → Event → Prop) : Along ok [] := by
  intro position inside
  simp at inside

@[simp]
theorem along_concat {ok : List Event → Event → Prop} {history : List Event} {event : Event} :
    Along ok (history ++ [event]) ↔ Along ok history ∧ ok history event := by
  constructor
  · intro along
    constructor
    · intro position inside
      have holds := along position (by simp; omega)
      simpa [List.take_append_of_le_length inside.le, List.getElem_append_left inside] using holds
    · simpa using along history.length (by simp)
  · rintro ⟨along, holds⟩ position inside
    rcases Nat.lt_or_ge position history.length with before | after
    · simpa [List.take_append_of_le_length before.le, List.getElem_append_left before] using
        along position before
    · have atEnd : position = history.length := by
        simp only [List.length_append, List.length_singleton] at inside
        omega
      subst atEnd
      simpa using holds

theorem Along.of_prefix {ok : List Event → Event → Prop} {shorter history : List Event}
    (along : Along ok history) (isPrefix : shorter <+: history) : Along ok shorter := by
  rcases isPrefix with ⟨rest, rfl⟩
  intro position inside
  have holds := along position (by simp; omega)
  simpa [List.take_append_of_le_length inside.le, List.getElem_append_left inside] using holds

/-- The condition holds of the history and of each of its prefixes. -/
def Throughout (holds : List Event → Prop) (history : List Event) : Prop :=
  ∀ before, before <+: history → holds before

instance (holds : List Event → Prop) [DecidablePred holds] (history : List Event) :
    Decidable (Throughout holds history) :=
  decidable_of_iff (∀ before ∈ history.inits, holds before)
    (forall_congr' fun before => by rw [List.mem_inits])

theorem Throughout.of_prefix {holds : List Event → Prop} {shorter history : List Event}
    (throughout : Throughout holds history) (isPrefix : shorter <+: history) :
    Throughout holds shorter := by
  intro before isShorter
  exact throughout before (isShorter.trans isPrefix)

theorem Throughout.self {holds : List Event → Prop} {history : List Event}
    (throughout : Throughout holds history) : holds history :=
  throughout history (List.prefix_refl history)

@[simp]
theorem throughout_concat {holds : List Event → Prop} {history : List Event} {event : Event} :
    Throughout holds (history ++ [event]) ↔
      Throughout holds history ∧ holds (history ++ [event]) := by
  constructor
  · intro throughout
    exact ⟨throughout.of_prefix (List.prefix_append _ _), throughout.self⟩
  · rintro ⟨throughout, atEnd⟩ before isPrefix
    rcases List.prefix_concat_iff.mp isPrefix with rfl | shorter
    · exact atEnd
    · exact throughout before shorter

section Counting

variable (select : List Event → Event → Prop) [∀ before, DecidablePred (select before)]

/-- The positions of the events that `select` picks, given the events before them. -/
def positions (history : List Event) : Finset ℕ :=
  (Finset.range history.length).filter fun position =>
    ∃ event ∈ history[position]?, select (history.take position) event

def count (history : List Event) : ℕ :=
  (positions select history).card

variable {select}

theorem mem_positions {history : List Event} {position : ℕ} :
    position ∈ positions select history ↔
      ∃ inside : position < history.length,
        select (history.take position) history[position] := by
  simp only [positions, Finset.mem_filter, Finset.mem_range]
  constructor
  · rintro ⟨inside, event, present, selected⟩
    refine ⟨inside, ?_⟩
    rw [Option.mem_def, List.getElem?_eq_getElem inside, Option.some.injEq] at present
    rwa [present]
  · rintro ⟨inside, selected⟩
    exact ⟨inside, _, by simp [inside], selected⟩

theorem positions_concat (history : List Event) (event : Event) :
    positions select (history ++ [event]) =
      if select history event then insert history.length (positions select history)
      else positions select history := by
  ext position
  have old : position ∈ positions select history → position ≠ history.length := by
    intro present
    rcases mem_positions.mp present with ⟨inside, _⟩
    omega
  have split : position ∈ positions select (history ++ [event]) ↔
      position ∈ positions select history ∨
        (position = history.length ∧ select history event) := by
    simp only [mem_positions, List.length_append, List.length_singleton]
    constructor
    · rintro ⟨inside, selected⟩
      rcases Nat.lt_or_ge position history.length with before | after
      · left
        refine ⟨before, ?_⟩
        simpa [List.take_append_of_le_length before.le, List.getElem_append_left before]
          using selected
      · have atEnd : position = history.length := by omega
        subst atEnd
        exact Or.inr ⟨rfl, by simpa using selected⟩
    · rintro (⟨before, selected⟩ | ⟨rfl, selected⟩)
      · refine ⟨by omega, ?_⟩
        simpa [List.take_append_of_le_length before.le, List.getElem_append_left before]
          using selected
      · exact ⟨by omega, by simpa using selected⟩
  rw [split]
  by_cases selected : select history event
  · simp only [selected, if_true, Finset.mem_insert, and_true]
    tauto
  · simp [selected]

@[simp]
theorem count_nil : count select [] = 0 := rfl

@[simp]
theorem count_concat (history : List Event) (event : Event) :
    count select (history ++ [event]) =
      count select history + if select history event then 1 else 0 := by
  simp only [count, positions_concat]
  by_cases selected : select history event
  · have fresh : history.length ∉ positions select history := by
      intro present
      rcases mem_positions.mp present with ⟨inside, _⟩
      omega
    simp [selected, Finset.card_insert_of_notMem fresh]
  · simp [selected]

theorem count_eq_zero_iff {history : List Event} :
    count select history = 0 ↔ Along (fun before event => ¬select before event) history := by
  rw [count, Finset.card_eq_zero, Finset.eq_empty_iff_forall_notMem]
  simp only [mem_positions, not_exists, Along]

theorem not_select_of_count_eq_zero {history : List Event} {position later : ℕ} {event : Event}
    (zero : count select (history.take later) = 0) (before : position < later)
    (isEvent : history[position]? = some event) : ¬select (history.take position) event := by
  rcases List.getElem?_eq_some_iff.mp isEvent with ⟨inside, rfl⟩
  have notSelected := count_eq_zero_iff.mp zero position (by rw [List.length_take]; omega)
  rwa [List.getElem_take, List.take_take, Nat.min_eq_left before.le] at notSelected

theorem exists_of_count_ne_zero {history : List Event} (nonzero : count select history ≠ 0) :
    ∃ position event, history[position]? = some event ∧
      select (history.take position) event := by
  rcases Finset.card_ne_zero.mp nonzero with ⟨position, present⟩
  rcases mem_positions.mp present with ⟨inside, selected⟩
  exact ⟨position, _, List.getElem?_eq_getElem inside, selected⟩

variable (restart : List Event → Event → Prop) [∀ before, DecidablePred (restart before)]

variable (select) in
/-- The number of events that `select` picks after the last one that `restart` picks. -/
def countSince (history : List Event) : ℕ :=
  ((positions select history).filter fun position =>
    ∀ restarted ∈ positions restart history, restarted < position).card

@[simp]
theorem countSince_nil : countSince select restart [] = 0 := rfl

@[simp]
theorem countSince_concat (history : List Event) (event : Event) :
    countSince select restart (history ++ [event]) =
      if restart history event then 0
      else countSince select restart history + if select history event then 1 else 0 := by
  have newest : ∀ restarted ∈ positions restart history, restarted < history.length := by
    intro restarted present
    exact (mem_positions.mp present).1
  have old : ∀ position ∈ positions select history, position < history.length := by
    intro position present
    exact (mem_positions.mp present).1
  simp only [countSince, positions_concat]
  by_cases restarts : restart history event
  · rw [if_pos restarts, if_pos restarts, Finset.card_eq_zero, Finset.filter_eq_empty_iff]
    intro position present later
    have afterEnd := later history.length (Finset.mem_insert_self _ _)
    split at present
    · rcases Finset.mem_insert.mp present with rfl | isOld
      · exact lt_irrefl _ afterEnd
      · exact absurd (old position isOld) afterEnd.not_gt
    · exact absurd (old position present) afterEnd.not_gt
  · rw [if_neg restarts, if_neg restarts]
    by_cases selected : select history event
    · rw [if_pos selected, if_pos selected, Finset.filter_insert, if_pos newest,
        Finset.card_insert_of_notMem]
      intro present
      exact lt_irrefl _ (old _ (Finset.mem_filter.mp present).1)
    · rw [if_neg selected, if_neg selected, Nat.add_zero]

end Counting

section Last

variable (select : Event → Prop) [DecidablePred select]

/-- The most recent event of a kind. -/
def last (history : List Event) : Option Event :=
  (history.filter select).getLast?

variable {select}

@[simp]
theorem last_nil : last select [] = none := rfl

@[simp]
theorem last_concat (history : List Event) (event : Event) :
    last select (history ++ [event]) =
      if select event then some event else last select history := by
  by_cases selected : select event <;> simp [last, selected]

theorem last_map {Source : Type v} (view : Source → Event) (history : List Source) :
    last select (history.map view) =
      (last (fun source => select (view source)) history).map view := by
  induction history using List.reverseRecOn with
  | nil => rfl
  | append_singleton history source ih =>
      rw [List.map_append, List.map_singleton, last_concat, last_concat, ih]
      split <;> rfl

theorem last_mem {history : List Event} {event : Event}
    (isLast : last select history = some event) : event ∈ history ∧ select event := by
  have present := List.mem_of_getLast? isLast
  simpa using present

/-- The last event of a kind has no event of that kind after it. -/
theorem last_eq_some_iff {history : List Event} {event : Event} :
    last select history = some event ↔
      ∃ position : ℕ, history[position]? = some event ∧ select event ∧
        ∀ later : ℕ, position < later → ∀ other ∈ history[later]?, ¬select other := by
  induction history using List.reverseRecOn with
  | nil => simp
  | append_singleton history newest ih =>
      simp only [last_concat, Option.mem_def, getElem?_concat_eq_some_iff]
      by_cases selected : select newest
      · rw [if_pos selected]
        constructor
        · intro same
          rw [Option.some.injEq] at same
          refine ⟨history.length, Or.inr ⟨rfl, same⟩, same ▸ selected, ?_⟩
          rintro later isLater other (old | ⟨atEnd, _⟩)
          · have inside := (List.getElem?_eq_some_iff.mp old).1
            omega
          · omega
        · rintro ⟨position, old | ⟨_, same⟩, _, noneLater⟩
          · have inside := (List.getElem?_eq_some_iff.mp old).1
            exact absurd selected (noneLater history.length inside newest (Or.inr ⟨rfl, rfl⟩))
          · rw [same]
      · rw [if_neg selected, ih]
        constructor
        · rintro ⟨position, isEvent, isSelected, noneLater⟩
          refine ⟨position, Or.inl isEvent, isSelected, ?_⟩
          rintro later isLater other (old | ⟨_, rfl⟩)
          · exact noneLater later isLater other old
          · exact selected
        · rintro ⟨position, old | ⟨_, rfl⟩, isSelected, noneLater⟩
          · refine ⟨position, old, isSelected, ?_⟩
            intro later isLater other present
            exact noneLater later isLater other (Or.inl present)
          · exact absurd isSelected selected

theorem last_ne_none {history : List Event} {event : Event} (present : event ∈ history)
    (selected : select event) : last select history ≠ none := by
  intro isNone
  have empty := List.getLast?_eq_none_iff.mp isNone
  have isFiltered : event ∈ history.filter select := by
    simpa using ⟨present, selected⟩
  rw [empty] at isFiltered
  exact List.not_mem_nil isFiltered

theorem exists_last_iff {history : List Event} :
    (∃ event, last select history = some event) ↔ ∃ event ∈ history, select event := by
  constructor
  · rintro ⟨event, isLast⟩
    exact ⟨event, last_mem isLast⟩
  · rintro ⟨event, present, selected⟩
    exact Option.ne_none_iff_exists'.mp (last_ne_none present selected)

/-- An event of a kind that occurs at most once is the last one. -/
theorem last_of_atMostOne {history : List Event} {event : Event}
    (atMostOne : history.countP (fun item => select item) ≤ 1) (present : event ∈ history)
    (selected : select event) : last select history = some event := by
  have isFiltered : event ∈ history.filter select := by
    simpa using ⟨present, selected⟩
  rw [List.countP_eq_length_filter] at atMostOne
  rcases List.length_eq_one_iff.mp (Nat.le_antisymm atMostOne (List.length_pos_of_mem isFiltered))
    with ⟨only, isOnly⟩
  rw [isOnly, List.mem_singleton] at isFiltered
  rw [last, isOnly, isFiltered]
  rfl

end Last

end History
