import Mathlib.Data.List.DropRight
import Mathlib.Data.List.Find
import Mathlib.Data.List.Infix

/-!
# Words between separators

A list is cut into words at separators, each of which may be several items
long. `mark` goes over the list once and tells the items of separators from the
others. The words are the non-empty runs of the others, and `trim` drops the
separators at both ends.

The separators are assumed to be told apart wherever a list is entered: none is
empty, none begins with another one, and none begins inside another one. Then
the marks on both sides of a separator are those of the two sides alone, and
printing words with separators between them can be undone.
-/

namespace Words

universe u

/-- Separators that cannot be mistaken for one another. -/
structure Separators (Item : Type u) where
  list : List (List Item)
  nonempty : [] ∉ list
  prefixFree : ∀ sep ∈ list, ∀ other ∈ list, sep <+: other → sep = other
  apart : ∀ sep ∈ list, ∀ other ∈ list, ∀ item ∈ sep.head?, item ∉ other.tail

namespace Separators

variable {Item : Type u} [DecidableEq Item] (seps : Separators Item)

/-- The length of the separator with which a list begins, zero if there is none. -/
def leading (items : List Item) : ℕ :=
  ((seps.list.find? fun sep => sep <+: items).map List.length).getD 0

/-- Marks the items of separators, the first `inside` items being the rest of one. -/
def mark : ℕ → List Item → List (Bool × Item)
  | _, [] => []
  | 0, item :: rest =>
    match seps.leading (item :: rest) with
    | 0 => (false, item) :: mark 0 rest
    | inside + 1 => (true, item) :: mark inside rest
  | inside + 1, item :: rest => (true, item) :: mark inside rest

/-- The non-empty runs of unmarked items. -/
def runs (marked : List (Bool × Item)) : List (List Item) :=
  ((marked.splitOnP Prod.fst).filter (· ≠ [])).map (List.map Prod.snd)

def words (items : List Item) : List (List Item) := runs (seps.mark 0 items)

def trim (items : List Item) : List Item :=
  (((seps.mark 0 items).dropWhile Prod.fst).rdropWhile Prod.fst).map Prod.snd

section Marks

variable {seps}

theorem leading_eq_zero {items : List Item} (none : ∀ sep ∈ seps.list, ¬sep <+: items) :
    seps.leading items = 0 := by
  rw [leading, List.find?_eq_none.mpr (by simpa using none)]
  rfl

theorem leading_append_of_mem {sep : List Item} (isSep : sep ∈ seps.list) (rest : List Item) :
    seps.leading (sep ++ rest) = sep.length := by
  cases found : seps.list.find? fun other => other <+: sep ++ rest with
  | none =>
      have noPrefix := List.find?_eq_none.mp found sep isSep
      simp at noPrefix
  | some other =>
      have isOther := List.mem_of_find?_eq_some found
      have isPrefix : other <+: sep ++ rest := by simpa using List.find?_some found
      have same : other = sep := by
        rcases List.prefix_or_prefix_of_prefix isPrefix (List.prefix_append sep rest) with
          shorter | longer
        · exact seps.prefixFree other isOther sep isSep shorter
        · exact (seps.prefixFree sep isSep other isOther longer).symm
      rw [leading, found, same]
      rfl

theorem leading_le_length (items : List Item) : seps.leading items ≤ items.length := by
  cases found : seps.list.find? fun sep => sep <+: items with
  | none => simp [leading, found]
  | some sep =>
      have isPrefix : sep <+: items := by simpa using List.find?_some found
      simpa [leading, found] using isPrefix.length_le

/-- A list that does not begin like the inside of a separator. -/
def Begins (seps : Separators Item) (items : List Item) : Prop :=
  ∀ item ∈ items.head?, ∀ sep ∈ seps.list, item ∉ sep.tail

omit [DecidableEq Item] in
theorem begins_append_of_mem {sep : List Item} (isSep : sep ∈ seps.list) (rest : List Item) :
    seps.Begins (sep ++ rest) := by
  intro item isHead other isOther
  apply seps.apart sep isSep other isOther
  cases sep with
  | nil => exact absurd isSep seps.nonempty
  | cons first later => simpa using isHead

omit [DecidableEq Item] in
theorem prefix_append_iff {before rest sep : List Item} (entered : before ≠ [])
    (isSep : sep ∈ seps.list) (begins : seps.Begins rest) :
    sep <+: before ++ rest ↔ sep <+: before := by
  constructor
  · intro isPrefix
    rcases List.prefix_or_prefix_of_prefix isPrefix (List.prefix_append before rest) with
      within | ⟨beyond, rfl⟩
    · exact within
    · cases beyond with
      | nil => simp
      | cons item beyond =>
          exfalso
          rcases (List.prefix_append_right_inj before).mp isPrefix with ⟨tail, rfl⟩
          apply begins item (by simp) _ isSep
          rw [List.tail_append_of_ne_nil entered]
          simp
  · intro isPrefix
    exact isPrefix.trans (List.prefix_append before rest)

theorem leading_append {before rest : List Item} (entered : before ≠ [])
    (begins : seps.Begins rest) : seps.leading (before ++ rest) = seps.leading before := by
  rw [leading, leading]
  congr 2
  apply List.find?_congr
  intro sep isSep
  simp [prefix_append_iff entered isSep begins]

theorem map_snd_mark (inside : ℕ) (items : List Item) :
    (seps.mark inside items).map Prod.snd = items := by
  induction items generalizing inside with
  | nil => simp [mark]
  | cons item items ih =>
      cases inside with
      | zero =>
          rw [mark]
          cases seps.leading (item :: items) <;> simp [ih]
      | succ inside => simp [mark, ih]

theorem trim_infix (items : List Item) : seps.trim items <:+: items := by
  have trimmed : ((seps.mark 0 items).dropWhile Prod.fst).rdropWhile Prod.fst <:+:
      seps.mark 0 items :=
    (List.rdropWhile_prefix _ _).isInfix.trans (List.dropWhile_suffix _).isInfix
  simpa only [trim, map_snd_mark] using trimmed.map Prod.snd

/-- The marks of a list do not depend on what follows, unless a separator goes on there. -/
theorem mark_append {before rest : List Item} {inside : ℕ} (fits : inside ≤ before.length)
    (begins : seps.Begins rest) :
    seps.mark inside (before ++ rest) = seps.mark inside before ++ seps.mark 0 rest := by
  induction before generalizing inside with
  | nil =>
      rw [List.length_nil, Nat.le_zero] at fits
      simp [fits, mark]
  | cons item before ih =>
      cases inside with
      | zero =>
          have same := leading_append (List.cons_ne_nil item before) begins
          have bound := seps.leading_le_length (item :: before)
          rw [List.cons_append] at same ⊢
          rw [mark, mark, same]
          cases length : seps.leading (item :: before) with
          | zero => simp [ih]
          | succ more =>
              rw [length, List.length_cons] at bound
              have later := ih (Nat.le_of_succ_le_succ bound)
              simp [later]
      | succ inside =>
          have later := ih (Nat.le_of_succ_le_succ fits)
          simp [mark, later]

theorem mark_of_length (inside rest : List Item) :
    seps.mark inside.length (inside ++ rest) = inside.map (true, ·) ++ seps.mark 0 rest := by
  induction inside with
  | nil => rfl
  | cons item inside ih => simp [mark, ih]

theorem mark_append_of_mem {sep : List Item} (isSep : sep ∈ seps.list) (rest : List Item) :
    seps.mark 0 (sep ++ rest) = sep.map (true, ·) ++ seps.mark 0 rest := by
  have length := leading_append_of_mem isSep rest
  cases sep with
  | nil => exact absurd isSep seps.nonempty
  | cons item inside =>
      rw [List.cons_append] at length ⊢
      rw [mark, length, List.length_cons]
      simp [mark_of_length]

theorem mark_of_clean {word : List Item} (clean : ∀ sep ∈ seps.list, ¬sep <:+: word) :
    seps.mark 0 word = word.map (false, ·) := by
  induction word with
  | nil => rfl
  | cons item word ih =>
      have none : seps.leading (item :: word) = 0 := by
        apply leading_eq_zero
        intro sep isSep isPrefix
        exact clean sep isSep isPrefix.isInfix
      have cleanRest : ∀ sep ∈ seps.list, ¬sep <:+: word := by
        intro sep isSep isInfix
        exact clean sep isSep (isInfix.trans (List.suffix_cons item word).isInfix)
      simp [mark, none, ih cleanRest]

end Marks

section Words

omit [DecidableEq Item] in
theorem runs_append_separator (before rest : List (Bool × Item)) {sep : List Item}
    (nonempty : sep ≠ []) :
    runs (before ++ (sep.map (true, ·) ++ rest)) = runs before ++ runs rest := by
  induction sep generalizing before with
  | nil => exact absurd rfl nonempty
  | cons item sep ih =>
      have cut : ∀ rest, runs (before ++ (true, item) :: rest) = runs before ++ runs rest := by
        intro rest
        simp [runs, List.splitOnP_append_cons]
      rw [List.map_cons, List.cons_append, cut]
      cases sep with
      | nil => rfl
      | cons next sep =>
          have later := ih [] (List.cons_ne_nil next sep)
          rw [List.nil_append] at later
          rw [later]
          rfl

variable {seps}

@[simp]
theorem words_nil : seps.words [] = [] := rfl

/-- A separator separates the words before it from the words after it. -/
theorem words_append_of_mem (before rest : List Item) {sep : List Item} (isSep : sep ∈ seps.list) :
    seps.words (before ++ (sep ++ rest)) = seps.words before ++ seps.words rest := by
  have nonempty : sep ≠ [] := ne_of_mem_of_not_mem isSep seps.nonempty
  rw [words, mark_append (Nat.zero_le _) (begins_append_of_mem isSep rest),
    mark_append_of_mem isSep, runs_append_separator _ _ nonempty]
  rfl

/-- A word that can stand between separators. -/
structure IsWord (seps : Separators Item) (word : List Item) : Prop where
  nonempty : word ≠ []
  clean : ∀ sep ∈ seps.list, ¬sep <:+: word

theorem IsWord.words_eq {word : List Item} (isWord : seps.IsWord word) :
    seps.words word = [word] := by
  have whole : (word.map (false, ·)).splitOnP Prod.fst = [word.map (false, ·)] := by
    apply List.splitOnP_eq_singleton
    simp
  simp [words, runs, mark_of_clean isWord.clean, whole, isWord.nonempty, Function.comp_def]

/-- A list of nothing but separators. -/
def Blank (seps : Separators Item) (gap : List Item) : Prop :=
  ∃ parts : List (List Item), (∀ part ∈ parts, part ∈ seps.list) ∧ parts.flatten = gap

omit [DecidableEq Item] in
theorem Blank.exists_mem {gap : List Item} (blank : seps.Blank gap) {item : Item}
    (present : item ∈ gap) : ∃ sep ∈ seps.list, item ∈ sep := by
  rcases blank with ⟨parts, areSeps, rfl⟩
  rcases List.mem_flatten.mp present with ⟨part, isPart, inside⟩
  exact ⟨part, areSeps part isPart, inside⟩

theorem words_append_blank (before : List Item) {gap : List Item} (blank : seps.Blank gap)
    (rest : List Item) (nonempty : gap ≠ []) :
    seps.words (before ++ (gap ++ rest)) = seps.words before ++ seps.words rest := by
  rcases blank with ⟨parts, areSeps, rfl⟩
  induction parts generalizing before with
  | nil => exact absurd rfl nonempty
  | cons part parts ih =>
      rw [List.flatten_cons, List.append_assoc, words_append_of_mem _ _ (areSeps part (by simp))]
      rcases List.eq_nil_or_concat parts.flatten with empty | ⟨_, _, more⟩
      · rw [empty, List.nil_append]
      · have later := ih [] (fun part present => areSeps part (by simp [present])) (by simp [more])
        rw [List.nil_append] at later
        rw [later]
        rfl

theorem words_append_trailing (before : List Item) {gap : List Item} (blank : seps.Blank gap) :
    seps.words (before ++ gap) = seps.words before := by
  rcases List.eq_nil_or_concat gap with rfl | ⟨_, _, more⟩
  · rw [List.append_nil]
  · have cut := words_append_blank before blank [] (by simp [more])
    rwa [List.append_nil, words_nil, List.append_nil] at cut

theorem words_blank_append {gap : List Item} (blank : seps.Blank gap) (rest : List Item) :
    seps.words (gap ++ rest) = seps.words rest := by
  rcases List.eq_nil_or_concat gap with rfl | ⟨_, _, more⟩
  · rw [List.nil_append]
  · have cut := words_append_blank [] blank rest (by simp [more])
    rwa [List.nil_append, words_nil, List.nil_append] at cut

theorem mark_blank_append {gap : List Item} (blank : seps.Blank gap) (rest : List Item) :
    seps.mark 0 (gap ++ rest) = gap.map (true, ·) ++ seps.mark 0 rest := by
  rcases blank with ⟨parts, areSeps, rfl⟩
  induction parts with
  | nil => rfl
  | cons part parts ih =>
      have later := ih fun part present => areSeps part (by simp [present])
      rw [List.flatten_cons, List.append_assoc, mark_append_of_mem (areSeps part (by simp)), later,
        List.map_append, List.append_assoc]

/-- Trimming takes the separators before a word away and leaves the word. -/
theorem trim_blank_append {gap word : List Item} (blank : seps.Blank gap)
    (isWord : seps.IsWord word) : seps.trim (gap ++ word) = word := by
  have before : ∀ marked ∈ gap.map (true, ·), marked.1 = true := by simp
  have unmarked : (word.map (false, ·)).dropWhile Prod.fst = word.map (false, ·) := by
    rw [List.dropWhile_eq_self_iff]
    simp
  have kept : (word.map (false, ·)).rdropWhile Prod.fst = word.map (false, ·) := by
    rw [List.rdropWhile_eq_self_iff]
    intro nonempty isMarked
    rcases List.mem_map.mp (List.getLast_mem nonempty) with ⟨item, _, isLast⟩
    simp [← isLast] at isMarked
  rw [trim, mark_blank_append blank, mark_of_clean isWord.clean,
    List.dropWhile_append_of_pos before, unmarked, kept, List.map_map]
  exact List.map_id word

/-- Words printed with separators before each of them are read back. -/
theorem words_append_flatMap (first : List Item) {spaced : List (List Item × List Item)}
    (separated : ∀ entry ∈ spaced, seps.Blank entry.1 ∧ entry.1 ≠ [])
    (areWords : ∀ entry ∈ spaced, seps.IsWord entry.2) :
    seps.words (first ++ spaced.flatMap fun entry => entry.1 ++ entry.2) =
      seps.words first ++ spaced.map Prod.snd := by
  induction spaced generalizing first with
  | nil => simp
  | cons entry spaced ih =>
      have gap := separated entry (by simp)
      have later := ih entry.2 (fun entry present => separated entry (by simp [present]))
        fun entry present => areWords entry (by simp [present])
      rw [List.flatMap_cons, List.append_assoc, words_append_blank first gap.1 _ gap.2, later,
        (areWords entry (by simp)).words_eq]
      rfl

end Words

end Separators

end Words
