set_option autoImplicit false

/-! # Maps from texts

A map from texts is its list of entries in ascending order of the keys, each key once. Two maps
with the same entries are therefore equal. -/

namespace OverlayVpn

section Lookup

variable {κ α : Type} [BEq κ] [LawfulBEq κ]

/-- What has been taken out of a list of pairs is not found in it. -/
theorem lookup_filter_self (key : κ) (l : List (κ × α)) :
    (l.filter (·.1 != key)).lookup key = none := by
  rw [List.lookup_eq_none_iff]
  intro entry hentry
  have hne : (entry.1 != key) = true := (List.mem_filter.mp hentry).2
  rwa [bne_comm]

/-- All else is found as before. -/
theorem lookup_filter_of_ne {key other : κ} (l : List (κ × α)) (h : other ≠ key) :
    (l.filter (·.1 != key)).lookup other = l.lookup other := by
  induction l with
  | nil => rfl
  | cons entry rest ih =>
    obtain ⟨k, value⟩ := entry
    by_cases hk : k = key
    · have hother : (other == k) = false := beq_eq_false_iff_ne.mpr (hk ▸ h)
      rw [List.filter_cons_of_neg (by simp [hk]), ih, List.lookup_cons, hother]
    · rw [List.filter_cons_of_pos (by simp [hk]), List.lookup_cons, List.lookup_cons, ih]

end Lookup

/-- The order of entries: by their keys. -/
def EntryBefore {α : Type} (a b : String × α) : Prop := a.1 < b.1

/-- A map from texts. -/
structure KeyMap (α : Type) where
  entries : List (String × α)
  sorted : entries.Pairwise EntryBefore

namespace KeyMap

variable {α : Type}

@[ext] theorem ext_entries {m n : KeyMap α} (h : m.entries = n.entries) : m = n := by
  cases m; cases n; simp_all

instance [DecidableEq α] : DecidableEq (KeyMap α) := fun m n =>
  decidable_of_iff (m.entries = n.entries) ⟨ext_entries, fun h => h ▸ rfl⟩

/-- The map without entries. -/
def empty : KeyMap α := ⟨[], .nil⟩

instance : EmptyCollection (KeyMap α) := ⟨empty⟩

instance : Inhabited (KeyMap α) := ⟨empty⟩

/-- The value of a key. -/
def get? (m : KeyMap α) (key : String) : Option α := m.entries.lookup key

/-- Whether a key has a value. -/
def contains (m : KeyMap α) (key : String) : Bool := (m.get? key).isSome

/-- The number of keys. -/
def size (m : KeyMap α) : Nat := m.entries.length

/-- The keys, ascending. -/
def keys (m : KeyMap α) : List String := m.entries.map (·.1)

/-- The values in the order of their keys. -/
def values (m : KeyMap α) : List α := m.entries.map (·.2)

/-- Puts an entry in its place, in the stead of one with the same key. -/
def insertEntry (key : String) (value : α) : List (String × α) → List (String × α)
  | [] => [(key, value)]
  | e :: rest =>
    if key < e.1 then (key, value) :: e :: rest
    else if key = e.1 then (key, value) :: rest
    else e :: insertEntry key value rest

theorem mem_insertEntry {key : String} {value : α} {l : List (String × α)} {e : String × α}
    (h : e ∈ insertEntry key value l) : e = (key, value) ∨ e ∈ l := by
  induction l with
  | nil => simpa [insertEntry] using h
  | cons a rest ih =>
    unfold insertEntry at h
    split at h
    · simpa using h
    · split at h
      · rcases List.mem_cons.1 h with h | h
        · exact .inl h
        · exact .inr (List.mem_cons_of_mem _ h)
      · rcases List.mem_cons.1 h with h | h
        · exact .inr (h ▸ List.mem_cons_self)
        · exact (ih h).imp_right (List.mem_cons_of_mem _)

theorem sorted_insertEntry (key : String) (value : α) {l : List (String × α)}
    (h : l.Pairwise EntryBefore) : (insertEntry key value l).Pairwise EntryBefore := by
  induction l with
  | nil => simp [insertEntry]
  | cons a rest ih =>
    obtain ⟨first, later⟩ := List.pairwise_cons.1 h
    unfold insertEntry
    split
    · rename_i lt
      refine List.pairwise_cons.2 ⟨fun e he => ?_, h⟩
      rcases List.mem_cons.1 he with rfl | he
      · exact lt
      · exact String.lt_trans lt (first e he)
    · rename_i notLt
      split
      · rename_i eq
        refine List.pairwise_cons.2 ⟨fun e he => ?_, later⟩
        have before := first e he
        simp only [EntryBefore, eq] at before ⊢
        exact before
      · rename_i ne
        refine List.pairwise_cons.2 ⟨fun e he => ?_, ih later⟩
        rcases mem_insertEntry he with rfl | he
        · have le : a.1 ≤ key := String.not_lt.1 notLt
          show a.1 < key
          exact Decidable.byContradiction fun notBefore =>
            ne (String.le_antisymm (String.not_lt.1 notBefore) le)
        · exact first e he

/-- The map in which `key` has the value `value`. -/
def insert (m : KeyMap α) (key : String) (value : α) : KeyMap α :=
  ⟨insertEntry key value m.entries, sorted_insertEntry key value m.sorted⟩

/-- The map in which `key` has no value. -/
def erase (m : KeyMap α) (key : String) : KeyMap α :=
  ⟨m.entries.filter (·.1 != key), m.sorted.filter _⟩

/-- The map of a list of entries; of several with one key the last counts. -/
def ofList (entries : List (String × α)) : KeyMap α :=
  entries.foldl (fun m e => m.insert e.1 e.2) ∅

@[simp] theorem get?_empty (key : String) : (∅ : KeyMap α).get? key = none := rfl

theorem lookup_insertEntry_self (key : String) (value : α) (l : List (String × α)) :
    (insertEntry key value l).lookup key = some value := by
  induction l with
  | nil => simp [insertEntry]
  | cons a rest ih =>
    obtain ⟨k, v⟩ := a
    unfold insertEntry
    split
    · simp
    · split
      · simp
      · rename_i ne
        have differ : (key == k) = false := by simpa using ne
        simp [List.lookup_cons, differ, ih]

theorem lookup_insertEntry_of_ne {key other : String} (value : α) (l : List (String × α))
    (h : other ≠ key) : (insertEntry key value l).lookup other = l.lookup other := by
  have differ : (other == key) = false := by simpa using h
  induction l with
  | nil => simp [insertEntry, List.lookup_cons, differ]
  | cons a rest ih =>
    obtain ⟨k, v⟩ := a
    unfold insertEntry
    split
    · simp [List.lookup_cons, differ]
    · split
      · rename_i eq
        have eq : key = k := eq
        subst eq
        simp [List.lookup_cons, differ]
      · simp [List.lookup_cons, ih]

@[simp] theorem get?_insert_self (m : KeyMap α) (key : String) (value : α) :
    (m.insert key value).get? key = some value := lookup_insertEntry_self key value m.entries

theorem get?_insert_of_ne (m : KeyMap α) {key other : String} (value : α) (h : other ≠ key) :
    (m.insert key value).get? other = m.get? other :=
  lookup_insertEntry_of_ne value m.entries h

@[simp] theorem get?_erase_self (m : KeyMap α) (key : String) : (m.erase key).get? key = none :=
  lookup_filter_self key m.entries

theorem get?_erase_of_ne (m : KeyMap α) {key other : String} (h : other ≠ key) :
    (m.erase key).get? other = m.get? other := lookup_filter_of_ne m.entries h

end KeyMap

end OverlayVpn
