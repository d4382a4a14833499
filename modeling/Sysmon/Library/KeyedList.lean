import Mathlib.Data.Finmap
import Sysmon.Library.History

/-!
# Lists with keys

A list whose items carry keys is searched through a map that is filled in the
order of the list, so that of several items with one key the last one counts.
`join` combines the items of two lists that have the same key. Both are
described by the last item with a key; when a key occurs once, it is the item
that a search of the list finds.
-/

namespace KeyedList

universe u v w

variable {Item : Type u} {Key : Type v} {Value : Type w} [DecidableEq Key]
  {key : Item → Key} {items : List Item}

def index (key : Item → Key) (items : List Item) : Finmap fun _ : Key => Item :=
  items.foldl (fun map item => map.insert (key item) item) ∅

theorem lookup_index (name : Key) :
    (index key items).lookup name = History.last (fun item => key item = name) items := by
  induction items using List.reverseRecOn with
  | nil => simp [index]
  | append_singleton items item ih =>
      rw [index, List.foldl_append, History.last_concat, ← ih]
      by_cases same : key item = name
      · subst same
        simp
      · rw [if_neg same]
        exact Finmap.lookup_insert_of_ne _ (Ne.symm same)

/-- Combines the items of the second list with the items of the first under the same keys. -/
def join (key : Item → Key) (combine : Item → Item → Value) (prev cur : List Item) :
    Finmap fun _ : Key => Value :=
  cur.foldl (fun result item =>
    match (index key prev).lookup (key item) with
    | none => result
    | some partner => result.insert (key item) (combine partner item)) ∅

/-- A joined entry comes from the last items with its key. -/
theorem lookup_join (key : Item → Key) (combine : Item → Item → Value) (prev cur : List Item)
    (name : Key) :
    (join key combine prev cur).lookup name =
      (History.last (fun item => key item = name) prev).bind fun partner =>
        (History.last (fun item => key item = name) cur).map fun item => combine partner item := by
  rw [← lookup_index]
  induction cur using List.reverseRecOn with
  | nil => simp [join]
  | append_singleton cur item ih =>
      rw [join, List.foldl_append, History.last_concat]
      simp only [List.foldl_cons, List.foldl_nil]
      rw [← join]
      by_cases same : key item = name
      · subst same
        cases found : (index key prev).lookup (key item) with
        | none => simp [ih, found]
        | some partner => simp
      · rw [if_neg same, ← ih]
        cases (index key prev).lookup (key item) with
        | none => rfl
        | some partner => exact Finmap.lookup_insert_of_ne _ (Ne.symm same)

theorem mem_join_iff (key : Item → Key) (combine : Item → Item → Value) (prev cur : List Item)
    (name : Key) :
    name ∈ join key combine prev cur ↔
      (∃ partner ∈ prev, key partner = name) ∧ ∃ item ∈ cur, key item = name := by
  rw [← History.exists_last_iff, ← History.exists_last_iff, Finmap.mem_iff]
  simp only [lookup_join, Option.bind_eq_some_iff, Option.map_eq_some_iff]
  constructor
  · rintro ⟨value, partner, isPartner, item, isItem, _⟩
    exact ⟨⟨partner, isPartner⟩, item, isItem⟩
  · rintro ⟨⟨partner, isPartner⟩, item, isItem⟩
    exact ⟨_, partner, isPartner, item, isItem, rfl⟩

theorem last_eq_find? {select : Item → Prop} [DecidablePred select]
    (once : items.countP (fun item => select item) = 1) :
    History.last select items = items.find? fun item => select item := by
  rw [List.countP_eq_length_filter, List.length_eq_one_iff] at once
  rcases once with ⟨item, only⟩
  rw [History.last, ← List.head?_filter, only]
  rfl

omit [DecidableEq Key] in
theorem eq_of_perm_of_length_le_one {items items' : List Item} (same : items'.Perm items)
    (short : items.length ≤ 1) : items' = items := by
  match items with
  | [] => exact same.eq_nil
  | [_] => exact List.perm_singleton.mp same
  | _ :: _ :: _ =>
      simp only [List.length_cons] at short
      omega

theorem exists_find? {select : Item → Prop} [DecidablePred select]
    (once : items.countP (fun item => select item) = 1) :
    ∃ item, items.find? (fun item => select item) = some item := by
  rw [← Option.isSome_iff_exists, List.find?_isSome, ← List.countP_pos_iff]
  omega

end KeyedList
