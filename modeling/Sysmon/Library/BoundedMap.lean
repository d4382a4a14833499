import Mathlib.Data.Finmap

/-!
# Finite maps of bounded size

A `BoundedMap` is a finite map that never holds more than `capacity` entries;
the bound is a field, so no operation can exceed it. An update overwrites the
entry of a present key at any time, inserts an absent key while there is room,
and otherwise leaves the map as it is. `Accepts` says which of these happens.

Every operation is described by the `lookup` it leads to and by the set of
keys it leaves, and a map is determined by its lookups.
-/

universe u v

/-- A finite map with at most `capacity` entries. -/
structure BoundedMap (Key : Type u) (Value : Type v) (capacity : ℕ) where
  entries : Finmap fun _ : Key => Value
  card_le_capacity : entries.keys.card ≤ capacity

namespace BoundedMap

variable {Key : Type u} {Value : Type v} {capacity : ℕ}

def empty : BoundedMap Key Value capacity := ⟨∅, by simp⟩

def keys (map : BoundedMap Key Value capacity) : Finset Key := map.entries.keys

def size (map : BoundedMap Key Value capacity) : ℕ := map.keys.card

variable [DecidableEq Key]

def lookup (map : BoundedMap Key Value capacity) (key : Key) : Option Value :=
  map.entries.lookup key

/-- An update of the key is carried out: its entry exists or there is room for it. -/
def Accepts (map : BoundedMap Key Value capacity) (key : Key) : Prop :=
  key ∈ map.keys ∨ map.size < capacity

instance (map : BoundedMap Key Value capacity) (key : Key) : Decidable (map.Accepts key) :=
  inferInstanceAs (Decidable (_ ∨ _))

private theorem card_keys_insert_le {map : BoundedMap Key Value capacity} {key : Key}
    (accepts : map.Accepts key) (value : Value) :
    (map.entries.insert key value).keys.card ≤ capacity := by
  have keysInsert : (map.entries.insert key value).keys = insert key map.keys := by
    ext other
    simp [keys, Finmap.mem_keys]
  rw [keysInsert]
  rcases accepts with present | room
  · rw [Finset.insert_eq_of_mem present]
    exact map.card_le_capacity
  · exact (Finset.card_insert_le _ _).trans room

/-- Stores a value under a key, unless the key is new and the map is full. -/
def update (map : BoundedMap Key Value capacity) (key : Key) (value : Value) :
    BoundedMap Key Value capacity :=
  if accepts : map.Accepts key then
    ⟨map.entries.insert key value, card_keys_insert_le accepts value⟩
  else map

def delete (map : BoundedMap Key Value capacity) (key : Key) : BoundedMap Key Value capacity :=
  ⟨map.entries.erase key, by
    rw [Finmap.keys_erase]
    exact (Finset.card_le_card (Finset.erase_subset _ _)).trans map.card_le_capacity⟩

@[ext]
theorem ext {left right : BoundedMap Key Value capacity}
    (agree : ∀ key, left.lookup key = right.lookup key) : left = right := by
  cases left
  cases right
  simp only [mk.injEq]
  exact Finmap.ext_lookup agree

@[simp]
theorem mem_keys {map : BoundedMap Key Value capacity} {key : Key} :
    key ∈ map.keys ↔ (map.lookup key).isSome := by
  rw [keys, Finmap.mem_keys, lookup, Finmap.lookup_isSome]

theorem lookup_eq_none_iff {map : BoundedMap Key Value capacity} {key : Key} :
    map.lookup key = none ↔ key ∉ map.keys := by
  simp

omit [DecidableEq Key] in
@[simp]
theorem keys_empty : (empty : BoundedMap Key Value capacity).keys = ∅ := by
  simp [empty, keys]

@[simp]
theorem lookup_empty (key : Key) :
    (empty : BoundedMap Key Value capacity).lookup key = none := by
  simp [empty, lookup]

theorem lookup_update_self {map : BoundedMap Key Value capacity} {key : Key}
    (accepts : map.Accepts key) (value : Value) :
    (map.update key value).lookup key = some value := by
  simp [update, accepts, lookup]

/-- An update never affects the entries of other keys, whether it is carried out or not. -/
theorem lookup_update_of_ne (map : BoundedMap Key Value capacity) {key other : Key}
    (different : other ≠ key) (value : Value) :
    (map.update key value).lookup other = map.lookup other := by
  unfold update
  split
  · simp [lookup, Finmap.lookup_insert_of_ne _ different]
  · rfl

theorem update_of_not_accepts {map : BoundedMap Key Value capacity} {key : Key}
    (rejects : ¬map.Accepts key) (value : Value) : map.update key value = map := by
  simp [update, rejects]

theorem lookup_of_not_accepts {map : BoundedMap Key Value capacity} {key : Key}
    (rejects : ¬map.Accepts key) : map.lookup key = none := by
  rw [lookup_eq_none_iff]
  exact fun present => rejects (Or.inl present)

theorem lookup_update (map : BoundedMap Key Value capacity) (key other : Key) (value : Value) :
    (map.update key value).lookup other =
      if other = key ∧ map.Accepts key then some value else map.lookup other := by
  by_cases same : other = key
  · subst other
    by_cases accepts : map.Accepts key
    · simp [accepts, lookup_update_self accepts]
    · simp [accepts, update_of_not_accepts accepts]
  · simp [same, lookup_update_of_ne map same]

@[simp]
theorem lookup_delete_self (map : BoundedMap Key Value capacity) (key : Key) :
    (map.delete key).lookup key = none := by
  simp [delete, lookup]

theorem lookup_delete_of_ne (map : BoundedMap Key Value capacity) {key other : Key}
    (different : other ≠ key) : (map.delete key).lookup other = map.lookup other := by
  simp [delete, lookup, Finmap.lookup_erase_ne different]

theorem lookup_delete (map : BoundedMap Key Value capacity) (key other : Key) :
    (map.delete key).lookup other = if other = key then none else map.lookup other := by
  by_cases same : other = key
  · simp [same]
  · simp [same, lookup_delete_of_ne map same]

/-- While all keys in use fit into the map, an update of one of them is carried out. -/
theorem accepts_of_keys_subset {map : BoundedMap Key Value capacity} (used : Finset Key)
    {key : Key} (subset : map.keys ⊆ used) (fits : used.card ≤ capacity) (isUsed : key ∈ used) :
    map.Accepts key := by
  by_cases present : key ∈ map.keys
  · exact Or.inl present
  · right
    have proper : map.keys ⊂ used :=
      (Finset.ssubset_iff_of_subset subset).mpr ⟨key, isUsed, present⟩
    exact (Finset.card_lt_card proper).trans_le fits

theorem keys_update_subset (map : BoundedMap Key Value capacity) (key : Key) (value : Value) :
    (map.update key value).keys ⊆ insert key map.keys := by
  intro other present
  by_cases same : other = key
  · simp [same]
  · simp only [mem_keys, lookup_update_of_ne map same] at present
    simp [same, present]

theorem size_update_of_notMem {map : BoundedMap Key Value capacity} {key : Key}
    (absent : key ∉ map.keys) (room : map.size < capacity) (value : Value) :
    (map.update key value).size = map.size + 1 := by
  have keysUpdate : (map.update key value).keys = insert key map.keys := by
    ext other
    rw [Finset.mem_insert, mem_keys, mem_keys, lookup_update]
    by_cases same : other = key <;> simp [same, Accepts, room]
  rw [size, keysUpdate, Finset.card_insert_of_notMem absent, size]

theorem size_delete_lt {map : BoundedMap Key Value capacity} {key : Key}
    (present : key ∈ map.keys) : (map.delete key).size < map.size := by
  have keysDelete : (map.delete key).keys = map.keys.erase key := by
    ext other
    rw [Finset.mem_erase, mem_keys, mem_keys, lookup_delete]
    by_cases same : other = key <;> simp [same]
  rw [size, keysDelete]
  exact Finset.card_erase_lt_of_mem present

theorem keys_delete_subset (map : BoundedMap Key Value capacity) (key : Key) :
    (map.delete key).keys ⊆ map.keys := by
  intro other present
  by_cases same : other = key
  · subst other
    simp at present
  · simpa [lookup_delete_of_ne map same] using present

end BoundedMap
