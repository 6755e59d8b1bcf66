import OverlayVpn.Store.KeyMap
import Mathlib.Tactic.Common

set_option autoImplicit false

/-! # The entries of a map

The keys of a map ascend, so that no key stands twice: an entry is in the list of entries exactly
when a look-up of its key finds its value (`mem_entries_iff`), and putting the entries one after
another into an empty map gives the map again (`ofList_entries`). A change of the values leaves the
keys where they are, so that it passes through insertions and erasures (`map_insert`,
`map_erase`). So does a relation between the values of two maps with the same keys
(`Alike.insert`, `Alike.erase`). -/

namespace OverlayVpn

/-- Of two related options both have a value, or neither has. -/
theorem rel_cases {α β : Type} {R : α → β → Prop} {o : Option α} {o' : Option β}
    (h : Option.Rel R o o') :
    (o = none ∧ o' = none) ∨ ∃ a b, R a b ∧ o = some a ∧ o' = some b := by
  cases h with
  | none => exact Or.inl ⟨rfl, rfl⟩
  | some hab => exact Or.inr ⟨_, _, hab, rfl, rfl⟩

namespace KeyMap

variable {α : Type}

/-! ## Look-ups -/

theorem lookup_eq_none_of_forall_lt {key : String} {l : List (String × α)}
    (h : ∀ e ∈ l, key < e.1) : l.lookup key = none := by
  induction l with
  | nil => rfl
  | cons a rest ih =>
      have hne : (key == a.1) = false := by
        have hlt := h a List.mem_cons_self
        rw [beq_eq_false_iff_ne]
        rintro rfl
        exact String.lt_irrefl _ hlt
      rw [List.lookup_cons, hne]
      exact ih fun e he => h e (List.mem_cons_of_mem _ he)

theorem mem_iff_lookup {l : List (String × α)} (h : l.Pairwise EntryBefore) {key : String}
    {value : α} : (key, value) ∈ l ↔ l.lookup key = some value := by
  induction l with
  | nil => simp
  | cons a rest ih =>
      obtain ⟨k, v⟩ := a
      obtain ⟨hfirst, hlater⟩ := List.pairwise_cons.mp h
      rw [List.mem_cons, List.lookup_cons]
      by_cases heq : key = k
      · have hnone : rest.lookup key = none :=
          lookup_eq_none_of_forall_lt fun e he => by rw [heq]; exact hfirst e he
        have hrest : (key, value) ∉ rest := by
          rw [ih hlater, hnone]
          simp
        simp only [heq, Prod.mk.injEq, true_and, beq_self_eq_true, Option.some.injEq]
        rw [heq] at hrest
        exact ⟨fun hmem => (hmem.resolve_right hrest).symm, fun hv => Or.inl hv.symm⟩
      · have hne : (key == k) = false := beq_eq_false_iff_ne.mpr heq
        rw [hne, ← ih hlater]
        simp [heq]

/-- **The entries of a map are the keys and values that look-ups find.** -/
theorem mem_entries_iff {m : KeyMap α} {key : String} {value : α} :
    (key, value) ∈ m.entries ↔ m.get? key = some value := mem_iff_lookup m.sorted

theorem mem_values_iff {m : KeyMap α} {value : α} :
    value ∈ m.values ↔ ∃ key, m.get? key = some value := by
  simp only [values, List.mem_map, Prod.exists, exists_eq_right, mem_entries_iff]

/-- **Maps in which look-ups find the same are the same.** -/
theorem ext_get? {m n : KeyMap α} (h : ∀ key, m.get? key = n.get? key) : m = n := by
  have hnodup : ∀ m : KeyMap α, m.entries.Nodup := by
    intro m
    refine List.Pairwise.imp ?_ m.sorted
    rintro a b hlt rfl
    exact String.lt_irrefl _ hlt
  have hperm : m.entries.Perm n.entries := by
    rw [List.perm_ext_iff_of_nodup (hnodup m) (hnodup n)]
    rintro ⟨key, value⟩
    rw [mem_entries_iff, mem_entries_iff, h]
  refine ext_entries (hperm.eq_of_pairwise ?_ m.sorted n.sorted)
  intro a b _ _ hab hba
  exact absurd (String.lt_trans hab hba) (String.lt_irrefl _)

theorem contains_iff_mem_keys {m : KeyMap α} {key : String} :
    m.contains key = true ↔ key ∈ m.keys := by
  simp only [contains, Option.isSome_iff_exists, keys, List.mem_map, Prod.exists, exists_and_right,
    exists_eq_right, mem_entries_iff]

theorem contains_of_get? {m : KeyMap α} {key : String} {value : α} (h : m.get? key = some value) :
    m.contains key = true := by
  rw [contains, h, Option.isSome_some]

theorem mem_keys_of_get? {m : KeyMap α} {key : String} {value : α} (h : m.get? key = some value) :
    key ∈ m.keys := contains_iff_mem_keys.mp (contains_of_get? h)

theorem get?_insert (m : KeyMap α) (key other : String) (value : α) :
    (m.insert key value).get? other = if other = key then some value else m.get? other := by
  by_cases h : other = key
  · rw [if_pos h, h, get?_insert_self]
  · rw [if_neg h, get?_insert_of_ne m value h]

theorem get?_erase (m : KeyMap α) (key other : String) :
    (m.erase key).get? other = if other = key then none else m.get? other := by
  by_cases h : other = key
  · rw [if_pos h, h, get?_erase_self]
  · rw [if_neg h, get?_erase_of_ne m h]

/-- What is erased although it is not there. -/
theorem erase_of_get?_eq_none {m : KeyMap α} {key : String} (h : m.get? key = none) :
    m.erase key = m := by
  apply ext_entries
  rw [erase, List.filter_eq_self]
  rintro ⟨k, value⟩ hmem
  have hfound := mem_entries_iff.mp hmem
  have hne : k ≠ key := by
    rintro rfl
    rw [h] at hfound
    cases hfound
  simpa using hne

/-! ## Values one by one -/

section

variable {γ : Type} (f : α → γ)

/-- The map with every value replaced by its image. -/
def map (m : KeyMap α) : KeyMap γ where
  entries := m.entries.map fun e => (e.1, f e.2)
  sorted := by
    rw [List.pairwise_map]
    exact m.sorted

theorem lookup_map (key : String) (l : List (String × α)) :
    (l.map fun e => (e.1, f e.2)).lookup key = (l.lookup key).map f := by
  induction l with
  | nil => rfl
  | cons a rest ih =>
      rw [List.map_cons, List.lookup_cons, List.lookup_cons]
      split
      · rfl
      · exact ih

@[simp] theorem get?_map (m : KeyMap α) (key : String) :
    (m.map f).get? key = (m.get? key).map f := lookup_map f key m.entries

theorem insertEntry_map (key : String) (value : α) (l : List (String × α)) :
    (insertEntry key value l).map (fun e => (e.1, f e.2)) =
      insertEntry key (f value) (l.map fun e => (e.1, f e.2)) := by
  induction l with
  | nil => rfl
  | cons a rest ih =>
      simp only [insertEntry, List.map_cons]
      split
      · rfl
      · split
        · rfl
        · rw [List.map_cons, ih]

theorem values_map (m : KeyMap α) : (m.map f).values = m.values.map f := by
  simp only [values, map, List.map_map]
  rfl

@[simp] theorem map_insert (m : KeyMap α) (key : String) (value : α) :
    (m.insert key value).map f = (m.map f).insert key (f value) :=
  ext_entries (insertEntry_map f key value m.entries)

@[simp] theorem map_erase (m : KeyMap α) (key : String) :
    (m.erase key).map f = (m.map f).erase key := by
  apply ext_entries
  simp only [map, erase, List.filter_map]
  rfl

end

/-! ## Maps of their entries -/

/-- An entry whose key comes after all others goes to the end. -/
theorem insertEntry_of_forall_lt {key : String} (value : α) {l : List (String × α)}
    (h : ∀ e ∈ l, e.1 < key) : insertEntry key value l = l ++ [(key, value)] := by
  induction l with
  | nil => rfl
  | cons a rest ih =>
      have hlt := h a List.mem_cons_self
      have hback : ¬key < a.1 := fun hbefore => String.lt_irrefl _ (String.lt_trans hlt hbefore)
      have hne : key ≠ a.1 := by
        rintro rfl
        exact String.lt_irrefl _ hlt
      rw [insertEntry, if_neg hback, if_neg hne,
        ih fun e he => h e (List.mem_cons_of_mem _ he), List.cons_append]

theorem foldl_insert_entries (l : List (String × α)) (m : KeyMap α)
    (h : (m.entries ++ l).Pairwise EntryBefore) :
    (l.foldl (fun m e => m.insert e.1 e.2) m).entries = m.entries ++ l := by
  induction l generalizing m with
  | nil => simp
  | cons a rest ih =>
      have hbefore : ∀ e ∈ m.entries, e.1 < a.1 := fun e he =>
        (List.pairwise_append.mp h).2.2 e he a List.mem_cons_self
      have hentries : (m.insert a.1 a.2).entries = m.entries ++ [a] :=
        insertEntry_of_forall_lt a.2 hbefore
      have hsplit : m.entries ++ a :: rest = (m.insert a.1 a.2).entries ++ rest := by
        rw [hentries, List.append_assoc, List.singleton_append]
      rw [List.foldl_cons, ih (m.insert a.1 a.2) (hsplit ▸ h), hsplit]

/-- **A map is the map of its entries.** -/
theorem ofList_entries (m : KeyMap α) : ofList m.entries = m := by
  apply ext_entries
  have hentries := foldl_insert_entries m.entries (∅ : KeyMap α) m.sorted
  exact hentries

/-! ## Maps with related values -/

/-- Two maps have the same keys, with related values. -/
def Alike {β : Type} (R : α → β → Prop) (m : KeyMap α) (m' : KeyMap β) : Prop :=
  ∀ key, Option.Rel R (m.get? key) (m'.get? key)

theorem alike_refl {R : α → α → Prop} (hR : ∀ a, R a a) (m : KeyMap α) : m.Alike R m := by
  intro key
  cases m.get? key with
  | none => exact .none
  | some a => exact .some (hR a)

theorem Alike.eq {R : α → α → Prop} (hR : ∀ a a', R a a' → a = a') {m m' : KeyMap α}
    (h : m.Alike R m') : m = m' := by
  refine ext_get? fun key => ?_
  rcases rel_cases (h key) with ⟨hm, hm'⟩ | ⟨a, a', haa', hm, hm'⟩
  · rw [hm, hm']
  · rw [hm, hm', hR a a' haa']

section

variable {β : Type} {R : α → β → Prop} {m : KeyMap α} {m' : KeyMap β}

theorem Alike.insert (h : m.Alike R m') {a : α} {b : β} (hab : R a b) (key : String) :
    (m.insert key a).Alike R (m'.insert key b) := by
  intro other
  rw [get?_insert, get?_insert]
  split
  · exact .some hab
  · exact h other

theorem Alike.erase (h : m.Alike R m') (key : String) : (m.erase key).Alike R (m'.erase key) := by
  intro other
  rw [get?_erase, get?_erase]
  split
  · exact .none
  · exact h other

/-- What is the same of related values is the same of the maps. -/
theorem Alike.map_eq {γ : Type} (h : m.Alike R m') {f : α → γ} {g : β → γ}
    (hfg : ∀ a b, R a b → f a = g b) : m.map f = m'.map g := by
  refine ext_get? fun key => ?_
  rw [get?_map, get?_map]
  rcases rel_cases (h key) with ⟨hm, hm'⟩ | ⟨a, b, hab, hm, hm'⟩
  · rw [hm, hm']
    rfl
  · rw [hm, hm', Option.map_some, Option.map_some, hfg a b hab]

end

end KeyMap

end OverlayVpn
