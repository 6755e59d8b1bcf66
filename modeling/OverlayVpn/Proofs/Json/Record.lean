import Mathlib.Tactic.Common
import OverlayVpn.Json.Record

set_option autoImplicit false

/-! # Records are read back

A record that is written as an object with one member a field, each under the first of the field's
names, gives the texts of its fields when it is read (`readRecord_ofMembers`). -/

namespace OverlayVpn.Json

/-- A field, and the text that a record holds in it. -/
abbrev Filled := Field × String

/-- The name that a field is written with. -/
def Filled.name (q : Filled) : String := q.1.names.headD ""

/-- A field is known by the name that it is written with, and may hold its text. -/
def Filled.sound (q : Filled) : Bool := q.1.names.contains q.name && q.1.accepts q.2

/-- No field is taken for an earlier one. -/
def Told : List Filled → Prop :=
  List.Pairwise fun earlier later => earlier.1.names.contains later.name = false

/-- The texts that have been seen when the fields of `done` have, but not those of `rest`. -/
def seenTexts (done rest : List Filled) : List (Option String) :=
  (done.map fun q => some q.2) ++ rest.map fun _ => none

theorem textsOfMembers_cons {fields : List Field} {seen : List (Option String)} {key text : String}
    {value : Json} {tail : JsonMembers} {i : Nat} {field : Field}
    (hindex : fields.findIdx? (·.names.contains key) = some i) (hfield : fields[i]? = some field)
    (hseen : seen[i]? = some none) (hread : readText field value = .ok text) :
    textsOfMembers fields seen (.cons (some key) value tail) =
      textsOfMembers fields (seen.set i (some text)) tail := by
  rw [textsOfMembers]
  simp only [hindex, hfield, hseen, hread]
  rfl

/-- The members of the fields that are still to come are read one by one. -/
theorem textsOfMembers_filled (done : List Filled) {rest : List Filled}
    (htold : Told (done ++ rest)) (hsound : ∀ q ∈ rest, q.sound = true) :
    textsOfMembers ((done ++ rest).map (·.1)) (seenTexts done rest)
        ((rest.map fun q => (q.name, Json.string q.2)).foldr
          (fun m rest => .cons (some m.1) m.2 rest) .nil) =
      .ok (seenTexts (done ++ rest) []) := by
  induction rest generalizing done with
  | nil => simp [textsOfMembers]
  | cons q rest ih =>
      obtain ⟨hname, haccepts⟩ := (Bool.and_eq_true _ _).mp (hsound q List.mem_cons_self)
      have hindex : ((done ++ q :: rest).map (·.1)).findIdx? (·.names.contains q.name) =
          some done.length := by
        have hnone : (done.map (·.1)).findIdx? (·.names.contains q.name) = none := by
          rw [List.findIdx?_eq_none_iff]
          intro field hfield
          obtain ⟨p, hp, rfl⟩ := List.mem_map.mp hfield
          exact (List.pairwise_append.mp htold).2.2 p hp q List.mem_cons_self
        rw [List.map_append, List.findIdx?_append, hnone, List.map_cons, List.findIdx?_cons, hname]
        simp
      have hfield : ((done ++ q :: rest).map (·.1))[done.length]? = some q.1 := by simp
      have hseen : (seenTexts done (q :: rest))[done.length]? = some none := by simp [seenTexts]
      have hread : readText q.1 (.string q.2) = .ok q.2 := by simp [readText, haccepts]
      have hset : (seenTexts done (q :: rest)).set done.length (some q.2) =
          seenTexts (done ++ [q]) rest := by
        rw [seenTexts, List.set_append_right _ _ (by simp)]
        simp [seenTexts]
      have hsplit : done ++ q :: rest = (done ++ [q]) ++ rest := by simp
      have hsound' := fun p hp => hsound p (List.mem_cons_of_mem q hp)
      have hrest := ih (done ++ [q]) (hsplit ▸ htold) hsound'
      simp only [List.map_cons, List.foldr_cons]
      rw [← hset, ← hsplit] at hrest
      rw [textsOfMembers_cons hindex hfield hseen hread, hrest]

theorem fillIn_seen (qs : List Filled) :
    fillIn (qs.map (·.1)) (seenTexts qs []) = .ok (qs.map (·.2)) := by
  induction qs with
  | nil => rfl
  | cons q qs ih =>
      rw [seenTexts, List.map_nil, List.append_nil] at ih ⊢
      simp only [List.map_cons, fillIn, ih]
      rfl

/-- **What is written is read back.** -/
theorem readRecord_ofMembers {qs : List Filled} (htold : Told qs)
    (hsound : ∀ q ∈ qs, q.sound = true) :
    readRecord (qs.map (·.1)) (ofMembers (qs.map fun q => (q.name, .string q.2))) =
      .ok (qs.map (·.2)) := by
  have htexts := textsOfMembers_filled [] htold hsound
  have hnothing : seenTexts [] qs = (qs.map (·.1)).map fun _ => none := by
    rw [seenTexts, List.map_nil, List.nil_append, List.map_map]
    rfl
  rw [hnothing, List.nil_append] at htexts
  simp only [readRecord, ofMembers]
  rw [htexts]
  exact fillIn_seen qs

end OverlayVpn.Json
