import OverlayVpn.Toml.Reader

set_option autoImplicit false

/-! # Integers that are read fit in 64 bits with their sign

A number of a document that is too large makes it unfit, so whatever is read can be written again
(`read_bounded`). Every reader of values gives bounded values, and building the tree out of them
keeps them so. -/

namespace OverlayVpn.Toml

open Text

/-- That no integer in a value is too large for 64 bits with its sign. -/
inductive Bounded : Toml → Prop
  | string (s : String) : Bounded (.string s)
  | integer {n : Int} (h : n < Decimal.signedBound) : Bounded (.integer n)
  | float : Bounded .float
  | boolean (b : Bool) : Bounded (.boolean b)
  | dateTime : Bounded .dateTime
  | array {items : List Toml} (h : ∀ v ∈ items, Bounded v) : Bounded (.array items)
  | tables {items : List Toml} (h : ∀ v ∈ items, Bounded v) : Bounded (.tables items)
  | table {form : TableForm} {entries : Entries} (h : ∀ e ∈ entries, Bounded e.2) :
      Bounded (.table form entries)

/-- That the values of all entries are bounded. -/
def Entries.AllBounded (entries : Entries) : Prop := ∀ e ∈ entries, Bounded e.2

/-- That a reader gives bounded values. -/
def ReadsBounded (read : Reader Toml) : Prop :=
  ∀ {cs rest : List Char} {v : Toml}, read cs = some (v, rest) → Bounded v

/-- What each step of a fold keeps, the fold keeps. -/
theorem foldlM_keeps {σ α : Type} {step : σ → α → Option σ} {P : σ → Prop} {Q : α → Prop}
    (hstep : ∀ {s s' : σ} {a : α}, step s a = some s' → Q a → P s → P s') {xs : List α}
    (hxs : ∀ a ∈ xs, Q a) {s s' : σ} (h : xs.foldlM step s = some s') (hs : P s) : P s' := by
  induction xs generalizing s with
  | nil => exact Option.some.inj h ▸ hs
  | cons a xs ih =>
      obtain ⟨ha, hothers⟩ := List.forall_mem_cons.mp hxs
      rw [List.foldlM_cons] at h
      obtain ⟨next, hnext, h⟩ := Option.bind_eq_some_iff.mp h
      exact ih hothers h (hstep hnext ha hs)

/-! ## Numbers -/

theorem basedInteger_bounded (base : Nat) : ReadsBounded (basedInteger base) := by
  intro cs rest v h
  simp only [basedInteger, Option.bind_eq_bind, Option.bind_eq_some_iff] at h
  obtain ⟨⟨digits, more⟩, -, h⟩ := h
  split at h
  · next hn =>
      obtain ⟨rfl, -⟩ := Prod.mk.inj (Option.some.inj h)
      exact .integer (by omega)
  · cases h

theorem decimalInteger_bounded : ReadsBounded decimalInteger := by
  intro cs rest v h
  simp only [decimalInteger, Option.bind_eq_bind, Option.bind_eq_some_iff] at h
  obtain ⟨⟨digits, more⟩, -, h⟩ := h
  split at h
  · split at h
    · obtain ⟨rfl, -⟩ := Prod.mk.inj (Option.some.inj h)
      exact .integer (by have : 0 < Decimal.signedBound := by decide
                         omega)
    · cases h
  · split at h
    · next hn =>
        obtain ⟨rfl, -⟩ := Prod.mk.inj (Option.some.inj h)
        exact .integer (by omega)
    · cases h

theorem dateOrTime_bounded : ReadsBounded dateOrTime := by
  intro cs rest v h
  have htimed : ∀ {after : List Char}, ((time after).bind fun timed =>
      (offset timed.2).bind fun shifted => some (Toml.dateTime, shifted.2)) = some (v, rest) →
      v = .dateTime := by
    intro after h
    simp only [Option.bind_eq_some_iff] at h
    obtain ⟨_, -, _, -, h⟩ := h
    exact (Prod.mk.inj (Option.some.inj h)).1.symm
  suffices hdate : v = .dateTime by
    rw [hdate]
    exact .dateTime
  simp only [dateOrTime] at h
  split at h
  · split at h
    · exact htimed h
    · exact htimed h
    · simp only [Option.orElse_eq_orElse, Option.orElse_eq_or, Option.or_eq_some_iff] at h
      rcases h with h | ⟨-, h⟩
      · exact htimed h
      · exact (Prod.mk.inj (Option.some.inj h)).1.symm
    · exact (Prod.mk.inj (Option.some.inj h)).1.symm
  · obtain ⟨_, -, heq⟩ := Option.map_eq_some_iff.mp h
    exact (Prod.mk.inj heq).1.symm

theorem decimalFloat_bounded {cs rest : List Char} {v : Toml}
    (h : decimalFloat cs = some (some (v, rest))) : Bounded v := by
  have hlast : ∀ {found : Option (List Char × Int × List Char)} {negative : Bool}
      {whole : List Char}, (found.bind fun parts =>
        if (! negative && overflows whole parts.1 parts.2.1) = true then pure none
        else pure (some (Toml.float, parts.2.2))) = some (some (v, rest)) → Bounded v := by
    intro found negative whole h
    obtain ⟨parts, -, h⟩ := Option.bind_eq_some_iff.mp h
    split at h
    · cases h
    · obtain ⟨rfl, -⟩ := Prod.mk.inj (Option.some.inj (Option.some.inj h))
      exact .float
  simp only [decimalFloat, Option.bind_eq_bind] at h
  obtain ⟨_, -, h⟩ := Option.bind_eq_some_iff.mp h
  split at h
  · split at h <;> exact hlast h
  · exact hlast h

theorem namedFloat_bounded : ReadsBounded namedFloat := by
  intro cs rest v h
  unfold namedFloat at h
  split at h
  · obtain ⟨rfl, -⟩ := Prod.mk.inj (Option.some.inj h)
    exact .float
  · obtain ⟨rfl, -⟩ := Prod.mk.inj (Option.some.inj h)
    exact .float
  · cases h

theorem number_bounded : ReadsBounded number := by
  intro cs rest v h
  unfold number at h
  split at h
  · exact basedInteger_bounded 16 h
  · exact basedInteger_bounded 8 h
  · exact basedInteger_bounded 2 h
  split at h
  · next hfound => exact dateOrTime_bounded (hfound.trans h)
  split at h
  · next hfound =>
      rw [h] at hfound
      exact decimalFloat_bounded hfound
  simp only [Option.orElse_eq_orElse, Option.orElse_eq_or, Option.or_eq_some_iff] at h
  rcases h with h | ⟨-, h⟩
  · exact namedFloat_bounded h
  · exact decimalInteger_bounded h

/-! ## Lists and tables -/

section Nested

variable {read : Reader Toml} (hread : ReadsBounded read)

include hread

theorem items_bounded {steps : Nat} {cs rest : List Char} {vs : List Toml}
    (h : items read steps cs = some (vs, rest)) : ∀ v ∈ vs, Bounded v := by
  induction steps generalizing cs rest vs with
  | zero => cases h
  | succ steps ih =>
      simp only [items, Option.bind_eq_bind] at h
      obtain ⟨_, -, h⟩ := Option.bind_eq_some_iff.mp h
      split at h
      · obtain ⟨rfl, -⟩ := Prod.mk.inj (Option.some.inj h)
        exact List.forall_mem_nil _
      obtain ⟨⟨v, after⟩, hv, h⟩ := Option.bind_eq_some_iff.mp h
      obtain ⟨_, -, h⟩ := Option.bind_eq_some_iff.mp h
      split at h
      · obtain ⟨⟨more, last⟩, hmore, h⟩ := Option.bind_eq_some_iff.mp h
        obtain ⟨rfl, -⟩ := Prod.mk.inj (Option.some.inj h)
        exact List.forall_mem_cons.mpr ⟨hread hv, ih hmore⟩
      · obtain ⟨rfl, -⟩ := Prod.mk.inj (Option.some.inj h)
        exact List.forall_mem_singleton.mpr (hread hv)
      · cases h

theorem assignment_bounded {cs rest : List Char} {a : List String × Toml}
    (h : assignment read cs = some (a, rest)) : Bounded a.2 := by
  simp only [assignment, Option.bind_eq_bind] at h
  obtain ⟨_, -, h⟩ := Option.bind_eq_some_iff.mp h
  obtain ⟨_, -, h⟩ := Option.bind_eq_some_iff.mp h
  obtain ⟨⟨v, after⟩, hv, h⟩ := Option.bind_eq_some_iff.mp h
  obtain ⟨rfl, -⟩ := Prod.mk.inj (Option.some.inj h)
  exact hread hv

theorem assignments_bounded {steps : Nat} {cs rest : List Char} {found : List (List String × Toml)}
    (h : assignments read steps cs = some (found, rest)) : ∀ a ∈ found, Bounded a.2 := by
  induction steps generalizing cs rest found with
  | zero => cases h
  | succ steps ih =>
      simp only [assignments, Option.bind_eq_bind] at h
      obtain ⟨⟨a, after⟩, ha, h⟩ := Option.bind_eq_some_iff.mp h
      have hbounded := assignment_bounded hread ha
      split at h
      · obtain ⟨⟨more, last⟩, hmore, h⟩ := Option.bind_eq_some_iff.mp h
        obtain ⟨rfl, -⟩ := Prod.mk.inj (Option.some.inj h)
        exact List.forall_mem_cons.mpr ⟨hbounded, ih hmore⟩
      · obtain ⟨rfl, -⟩ := Prod.mk.inj (Option.some.inj h)
        exact List.forall_mem_singleton.mpr hbounded
      · cases h

end Nested

/-! ## Building the tree -/

/-- That an operation on tables keeps all values bounded. -/
def Keeps (f : Draft → Option Draft) : Prop :=
  ∀ {draft draft' : Draft}, f draft = some draft' → draft.2.AllBounded → draft'.2.AllBounded

theorem Entries.AllBounded.concat {entries : Entries} (h : entries.AllBounded) {e : String × Toml}
    (he : Bounded e.2) : Entries.AllBounded (entries ++ [e]) := fun e' he' =>
  (List.mem_append.mp he').elim (h e') fun hlast => List.mem_singleton.mp hlast ▸ he

theorem Entries.AllBounded.replace {entries : Entries} (h : entries.AllBounded) (name : String)
    {v : Toml} (hv : Bounded v) : (entries.replace name v).AllBounded := by
  intro e he
  obtain ⟨old, hold, rfl⟩ := List.mem_map.mp he
  split
  · exact hv
  · exact h old hold

theorem Entries.AllBounded.lookup {entries : Entries} (h : entries.AllBounded) {name : String}
    {v : Toml} (hv : entries.lookup name = some v) : Bounded v := by
  obtain ⟨front, back, rfl, -⟩ := List.lookup_eq_some_iff.mp hv
  exact h (name, v) (by simp)

/-- What is done to a table inside keeps the values of the whole bounded. -/
theorem within_bounded {dotted : Bool} {f : Draft → Option Draft} (hf : Keeps f)
    (path : List String) : Keeps (within dotted f path) := by
  induction path with
  | nil => exact hf
  | cons name path ih =>
      rintro ⟨form, entries⟩ draft' h hentries
      have hchild : ∀ {start : Draft} {child : Toml}, (within dotted f path start).bind
          (fun inside => pure (Toml.table inside.1 inside.2)) = some child →
          start.2.AllBounded → Bounded child := by
        intro start child hchild hstart
        obtain ⟨inside, hinside, heq⟩ := Option.bind_eq_some_iff.mp hchild
        obtain rfl := Option.some.inj heq
        exact .table (ih hinside hstart)
      simp only [within, Option.bind_eq_bind] at h
      split at h
      · obtain ⟨child, hnew, h⟩ := Option.bind_eq_some_iff.mp h
        obtain rfl := Option.some.inj h
        exact hentries.concat (hchild hnew (List.forall_mem_nil _))
      · next hfound =>
          cases hentries.lookup hfound with
          | table hinside =>
              split at h
              · cases h
              · obtain ⟨child, hnew, h⟩ := Option.bind_eq_some_iff.mp h
                obtain rfl := Option.some.inj h
                exact hentries.replace name (hchild hnew hinside)
      · next hfound =>
          cases hentries.lookup hfound with
          | @tables items hitems =>
              split at h
              · next hlast =>
                  have hmem := List.mem_of_getLast? hlast
                  obtain ⟨child, hnew, h⟩ := Option.bind_eq_some_iff.mp h
                  obtain rfl := Option.some.inj h
                  cases hitems _ hmem with
                  | table hinside =>
                      refine hentries.replace name (.tables fun v hv => ?_)
                      rcases List.mem_append.mp hv with hv | hv
                      · exact hitems v ((List.dropLast_sublist _).subset hv)
                      · exact List.mem_singleton.mp hv ▸ hchild hnew hinside
              · cases h
      · cases h

theorem putAt_bounded (path : List String) {v : Toml} (hv : Bounded v) : Keeps (putAt path v) := by
  intro draft draft' h hdraft
  simp only [putAt, Option.bind_eq_bind] at h
  obtain ⟨⟨front, name⟩, -, h⟩ := Option.bind_eq_some_iff.mp h
  refine within_bounded (fun {start after} hput hstart => ?_) front h hdraft
  split at hput
  · cases hput
  split at hput
  · cases hput
  · obtain rfl := Option.some.inj hput
    exact hstart.concat hv

theorem openTable_bounded (path : List String) : Keeps (openTable path) := by
  intro draft draft' h hdraft
  simp only [openTable, Option.bind_eq_bind] at h
  obtain ⟨⟨front, name⟩, -, h⟩ := Option.bind_eq_some_iff.mp h
  refine within_bounded (fun {start after} hopen hstart => ?_) front h hdraft
  split at hopen
  · obtain rfl := Option.some.inj hopen
    exact hstart.concat (.table (List.forall_mem_nil _))
  · next hfound =>
      obtain rfl := Option.some.inj hopen
      cases hstart.lookup hfound with
      | table hinside =>
          exact Entries.AllBounded.concat (fun e he => hstart e (List.mem_filter.mp he).1)
            (.table hinside)
  · cases hopen

theorem openItem_bounded (path : List String) : Keeps (openItem path) := by
  intro draft draft' h hdraft
  simp only [openItem, Option.bind_eq_bind] at h
  obtain ⟨⟨front, name⟩, -, h⟩ := Option.bind_eq_some_iff.mp h
  have hempty : Bounded (.table .header []) := .table (List.forall_mem_nil _)
  refine within_bounded (fun {start after} hopen hstart => ?_) front h hdraft
  split at hopen
  · obtain rfl := Option.some.inj hopen
    exact hstart.concat (.tables (List.forall_mem_singleton.mpr hempty))
  · next hfound =>
      obtain rfl := Option.some.inj hopen
      cases hstart.lookup hfound with
      | tables hitems =>
          refine hstart.replace name (.tables fun v hv => ?_)
          rcases List.mem_append.mp hv with hv | hv
          · exact hitems v hv
          · exact List.mem_singleton.mp hv ▸ hempty
  · cases hopen

theorem ofAssignments_bounded {found : List (List String × Toml)} (hfound : ∀ a ∈ found, Bounded a.2)
    {v : Toml} (h : ofAssignments found = some v) : Bounded v := by
  simp only [ofAssignments, Option.bind_eq_bind] at h
  obtain ⟨⟨form, entries⟩, hfold, h⟩ := Option.bind_eq_some_iff.mp h
  obtain rfl := Option.some.inj h
  exact .table (foldlM_keeps (P := fun draft : Draft => draft.2.AllBounded)
    (fun hput ha hdraft => putAt_bounded _ ha hput hdraft) hfound hfold (List.forall_mem_nil _))

/-! ## Values and documents -/

theorem inlineTable_bounded {read : Reader Toml} (hread : ReadsBounded read) :
    ReadsBounded (inlineTable read) := by
  intro cs rest v h
  unfold inlineTable at h
  split at h
  · obtain ⟨rfl, -⟩ := Prod.mk.inj (Option.some.inj h)
    exact .table (List.forall_mem_nil _)
  · simp only [Option.bind_eq_bind] at h
    obtain ⟨⟨found, after⟩, hfound, h⟩ := Option.bind_eq_some_iff.mp h
    obtain ⟨table, htable, h⟩ := Option.bind_eq_some_iff.mp h
    obtain ⟨rfl, -⟩ := Prod.mk.inj (Option.some.inj h)
    exact ofAssignments_bounded (assignments_bounded hread hfound) htable

theorem value_bounded (depth : Nat) : ReadsBounded (value depth) := by
  induction depth using Nat.strongRecOn with
  | ind depth ih =>
      intro cs rest v h
      unfold value at h
      split at h
      · obtain ⟨_, -, heq⟩ := Option.map_eq_some_iff.mp h
        exact (Prod.mk.inj heq).1 ▸ .string _
      · obtain ⟨_, -, heq⟩ := Option.map_eq_some_iff.mp h
        exact (Prod.mk.inj heq).1 ▸ .string _
      · exact (Prod.mk.inj (Option.some.inj h)).1 ▸ .boolean true
      · exact (Prod.mk.inj (Option.some.inj h)).1 ▸ .boolean false
      · split at h
        · cases h
        · next depth =>
            obtain ⟨_, hitems, heq⟩ := Option.map_eq_some_iff.mp h
            exact (Prod.mk.inj heq).1 ▸ .array (items_bounded (ih depth (Nat.lt_succ_self _)) hitems)
      · split at h
        · cases h
        · next depth => exact inlineTable_bounded (ih depth (Nat.lt_succ_self _)) h
      · exact number_bounded h

/-- That the value of a statement is bounded, if it has one. -/
def Statement.Bounded : Statement → Prop
  | .assign _ v => Toml.Bounded v
  | .table _ | .item _ => True

theorem header_bounded {cs rest : List Char} {s : Statement} (h : header cs = some (s, rest)) :
    s.Bounded := by
  unfold header at h
  split at h
  all_goals
    obtain ⟨_, -, h⟩ := Option.bind_eq_some_iff.mp h
    obtain ⟨_, -, h⟩ := Option.bind_eq_some_iff.mp h
    obtain ⟨rfl, -⟩ := Prod.mk.inj (Option.some.inj h)
    exact trivial

theorem statement_bounded {cs rest : List Char} {s : Statement}
    (h : statement cs = some (some s, rest)) : s.Bounded := by
  unfold statement at h
  split at h
  · cases h
  · obtain ⟨⟨s', after⟩, hs, heq⟩ := Option.map_eq_some_iff.mp h
    obtain rfl := Option.some.inj (Prod.mk.inj heq).1
    exact header_bounded hs
  · cases h
  · split at h
    · cases h
    · obtain ⟨_, ha, heq⟩ := Option.map_eq_some_iff.mp h
      obtain rfl := Option.some.inj (Prod.mk.inj heq).1
      exact assignment_bounded (value_bounded maxDepth) ha

theorem statements_bounded {steps : Nat} {cs : List Char} {found : List Statement}
    (h : statements steps cs = some found) : ∀ s ∈ found, s.Bounded := by
  induction steps generalizing cs found with
  | zero => cases h
  | succ steps ih =>
      simp only [statements, Option.bind_eq_bind] at h
      obtain ⟨⟨first, after⟩, hfirst, h⟩ := Option.bind_eq_some_iff.mp h
      obtain ⟨_, -, h⟩ := Option.bind_eq_some_iff.mp h
      have hbounded : ∀ s ∈ first.toList, s.Bounded := by
        intro s hs
        obtain rfl := Option.mem_toList.mp hs
        exact statement_bounded hfirst
      split at h
      · exact Option.some.inj h ▸ hbounded
      · obtain ⟨more, hmore, h⟩ := Option.bind_eq_some_iff.mp h
        obtain rfl := Option.some.inj h
        exact List.forall_mem_append.mpr ⟨hbounded, ih hmore⟩

theorem add_bounded {document document' : Document} {s : Statement} (hs : s.Bounded)
    (h : document.add s = some document') (hdocument : document.2.2.AllBounded) :
    document'.2.2.AllBounded := by
  unfold Document.add at h
  cases s with
  | assign path v =>
      obtain ⟨root, hroot, h⟩ := Option.bind_eq_some_iff.mp h
      obtain rfl := Option.some.inj h
      exact within_bounded (putAt_bounded path hs) _ hroot hdocument
  | table path =>
      obtain ⟨root, hroot, rfl⟩ := Option.map_eq_some_iff.mp h
      exact openTable_bounded path hroot hdocument
  | item path =>
      obtain ⟨root, hroot, rfl⟩ := Option.map_eq_some_iff.mp h
      exact openItem_bounded path hroot hdocument

/-- **All integers of a document fit in 64 bits with their sign.** -/
theorem read_bounded {s : String} {entries : Entries} (h : read s = some entries) :
    entries.AllBounded := by
  obtain ⟨found, hfound, h⟩ := Option.bind_eq_some_iff.mp h
  simp only [ofStatements, Option.bind_eq_bind] at h
  obtain ⟨⟨current, draft⟩, hfold, h⟩ := Option.bind_eq_some_iff.mp h
  obtain rfl := Option.some.inj h
  exact foldlM_keeps (P := fun document : Document => document.2.2.AllBounded)
    (fun hadd hs hdocument => add_bounded hs hadd hdocument) (statements_bounded hfound) hfold
    (List.forall_mem_nil _)

end OverlayVpn.Toml
