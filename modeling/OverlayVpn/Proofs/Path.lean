import Mathlib.Tactic.Common
import OverlayVpn.Path
import OverlayVpn.Proofs.Text.Blank

set_option autoImplicit false

/-! # A file's sibling

The sibling in which a file's new contents are prepared starts where the file's path starts, and
has the same names up to the last one: that is either the file's name with an ending, or one more
name behind a path that ends in no file name (`names_tempSibling`). -/

namespace OverlayVpn

namespace Path

/-! ## Redundant segments -/

theorem filter_strip (segments : List String) :
    (strip segments).filter (! redundant ·) = segments.filter (! redundant ·) := by
  obtain ⟨dropped, hsplit, hdropped⟩ := Text.dropEndWhile_append redundant segments
  have hnone : dropped.filter (! redundant ·) = [] := by
    rw [List.filter_eq_nil_iff]
    intro s hs
    simp [hdropped s hs]
  conv_rhs => rw [hsplit, List.filter_append, hnone, List.append_nil]
  rfl

theorem redundant_getLast?_strip {segments : List String} {name : String}
    (h : (strip segments).getLast? = some name) : redundant name = false :=
  Text.getLast?_dropEndWhile h

theorem names_cons (first : String) (rest : List String) :
    names ⟨first :: rest⟩ = names ⟨[first]⟩ ++ rest.filter (! redundant ·) := by
  simp only [names, List.filter_cons, List.filter_nil]
  split <;> rfl

theorem isAbsolute_cons_cons (first second : String) (rest : List String) :
    isAbsolute ⟨first :: second :: rest⟩ = decide (first = "") := by
  by_cases h : first = ""
  · rw [h]; rfl
  · simp [isAbsolute, h]

theorem ne_empty_of_not_redundant {name : String} (h : redundant name = false) : name ≠ "" := by
  rintro rfl
  exact absurd h (by decide)

/-- A path inside a directory has one name more. -/
theorem names_push (p : Path) {name : String} (h : redundant name = false) :
    (p.push name).names = p.names ++ [name] := by
  have hname : [name].filter (! redundant ·) = [name] := by simp [h]
  unfold push
  split
  · next hlast =>
      obtain ⟨front, hfront⟩ := List.getLast?_eq_some_iff.mp (beq_iff_eq.mp hlast)
      have hempty : [""].filter (! redundant ·) = [] := by decide
      rw [names, names, hfront, List.dropLast_concat, List.filter_append, List.filter_append, hname,
        hempty, List.append_nil]
  · rw [names, names, List.filter_append, hname]

/-- A path and one inside it start at the same place. -/
theorem isAbsolute_push (p : Path) {name : String} (h : redundant name = false) :
    (p.push name).isAbsolute = p.isAbsolute := by
  have hname := ne_empty_of_not_redundant h
  obtain ⟨segments⟩ := p
  match segments with
  | [] => simp [push, isAbsolute]
  | [first] =>
      by_cases hfirst : first = ""
      · simp [push, isAbsolute, hfirst]
      · simp [push, isAbsolute, hfirst]
  | first :: second :: rest =>
      rw [isAbsolute_cons_cons, push]
      split
      · cases rest with
        | nil => exact isAbsolute_cons_cons first name []
        | cons third rest => exact isAbsolute_cons_cons first second _
      · exact isAbsolute_cons_cons first second _

/-! ## The sibling -/

/-- A path is a file's name inside its parent. -/
structure EndsIn (p : Path) (name : String) (parent : Path) : Prop where
  names_something : redundant name = false
  ne_up : name ≠ ".."
  parent_eq : p.parent? = some parent
  names_eq : p.names = parent.names ++ [name]
  isAbsolute_eq : parent.isAbsolute = p.isAbsolute

/-- A path of one name, if redundant segments are passed over. -/
theorem endsIn_first {first name : String} {rest : List String} (hrest : strip rest = [])
    (h : fileName? ⟨first :: rest⟩ = some name) : EndsIn ⟨first :: rest⟩ name ⟨[""]⟩ := by
  simp only [fileName?, hrest, List.getLast?_nil, Option.ite_none_left_eq_some, Bool.or_eq_true,
    beq_iff_eq, not_or, Bool.not_eq_true, Option.some.injEq] at h
  obtain ⟨⟨hname, hup⟩, rfl⟩ := h
  have hne := ne_empty_of_not_redundant hname
  refine ⟨hname, hup, ?_, ?_, ?_⟩
  · simp [parent?, hrest, hne]
  · rw [names_cons, ← filter_strip rest, hrest]
    show names ⟨[first]⟩ ++ [] = [first]
    rw [List.append_nil, names, List.filter_cons_of_pos (by simp [hname])]
    rfl
  · cases rest with
    | nil => simp [isAbsolute]
    | cons second rest =>
        rw [isAbsolute_cons_cons, decide_eq_false hne]
        rfl

/-- The segments before a path's last name; those of the root are two. -/
def parentSegments (first : String) (front : List String) : List String :=
  if (strip front).isEmpty && first == "" then ["", ""] else first :: strip front

theorem parent?_eq {first last : String} {rest front : List String}
    (hfront : strip rest = front ++ [last]) :
    parent? ⟨first :: rest⟩ = some ⟨parentSegments first front⟩ := by
  have hdrop : (front ++ [last]).dropLast = front := List.dropLast_concat
  cases front with
  | nil =>
      simp only [parent?, hfront, List.nil_append, List.dropLast_singleton]
      rfl
  | cons head front =>
      simp only [parent?, hfront, List.cons_append]
      rw [← List.cons_append, hdrop]
      rfl

theorem names_parentSegments (first : String) (front : List String) :
    names ⟨parentSegments first front⟩ = names ⟨[first]⟩ ++ front.filter (! redundant ·) := by
  rw [← filter_strip front]
  unfold parentSegments
  split
  · next hroot =>
      simp only [Bool.and_eq_true, List.isEmpty_iff, beq_iff_eq] at hroot
      rw [hroot.1, hroot.2]
      rfl
  · exact names_cons first (strip front)

/-- Only the root's segments need to be two for the path to start at the root. -/
theorem isAbsolute_parentSegments (first : String) (front : List String) :
    isAbsolute ⟨parentSegments first front⟩ = decide (first = "") := by
  unfold parentSegments
  split
  · next hroot =>
      simp only [Bool.and_eq_true, beq_iff_eq] at hroot
      rw [hroot.2]
      rfl
  · next hroot =>
      cases hstrip : strip front with
      | nil =>
          have hne : first ≠ "" := by simpa [hstrip] using hroot
          rw [decide_eq_false hne]
          simp [isAbsolute]
      | cons second rest => exact isAbsolute_cons_cons first second rest

/-- A path of several names. -/
theorem endsIn_last {first last name : String} {rest front : List String}
    (hfront : strip rest = front ++ [last]) (h : fileName? ⟨first :: rest⟩ = some name) :
    EndsIn ⟨first :: rest⟩ name ⟨parentSegments first front⟩ := by
  have hlast : (strip rest).getLast? = some last := by rw [hfront, List.getLast?_concat]
  simp only [fileName?, hlast, beq_iff_eq, Option.ite_none_left_eq_some, Option.some.injEq] at h
  obtain ⟨hup, rfl⟩ := h
  have hname := redundant_getLast?_strip hlast
  have hrest : rest.filter (! redundant ·) = front.filter (! redundant ·) ++ [last] := by
    rw [← filter_strip rest, hfront, List.filter_append]
    simp [hname]
  refine ⟨hname, hup, parent?_eq hfront, ?_, ?_⟩
  · rw [names_cons, hrest, ← List.append_assoc, names_parentSegments]
  · rw [isAbsolute_parentSegments]
    cases rest with
    | nil => simp [strip, Text.dropEndWhile] at hfront
    | cons second more => exact (isAbsolute_cons_cons first second more).symm

/-- **A path that ends in a file's name is that name inside its parent.** -/
theorem endsIn_of_fileName {p : Path} {name : String} (h : p.fileName? = some name) :
    ∃ parent, EndsIn p name parent := by
  obtain ⟨segments⟩ := p
  cases segments with
  | nil => simp [fileName?] at h
  | cons first rest =>
      cases hlast : (strip rest).getLast? with
      | none => exact ⟨_, endsIn_first (List.getLast?_eq_none_iff.mp hlast) h⟩
      | some last =>
          obtain ⟨front, hfront⟩ := List.getLast?_eq_some_iff.mp hlast
          exact ⟨_, endsIn_last hfront h⟩

theorem redundant_append_tmp (name : String) : redundant (name ++ ".tmp") = false := by
  have hlength : (name ++ ".tmp").length = name.length + 4 := String.length_append name ".tmp"
  have hempty : name ++ ".tmp" ≠ "" := by
    intro heq
    rw [heq] at hlength
    simp at hlength
  have hdot : name ++ ".tmp" ≠ "." := by
    intro heq
    rw [heq] at hlength
    have hone : ".".length = 1 := rfl
    omega
  simp [redundant, hempty, hdot]

theorem append_tmp_ne_up (name : String) : name ++ ".tmp" ≠ ".." := by
  intro heq
  have hlength : (name ++ ".tmp").length = name.length + 4 := String.length_append name ".tmp"
  rw [heq] at hlength
  have htwo : "..".length = 2 := rfl
  omega

/-- A path that ends in a file's name, and its sibling, differ in the last name only. -/
theorem names_of_fileName {p : Path} {name : String} (h : p.fileName? = some name) :
    ∃ front, p.names = front ++ [name] ∧ name ≠ ".." ∧
      p.tempSibling.names = front ++ [name ++ ".tmp"] := by
  obtain ⟨parent, hends⟩ := endsIn_of_fileName h
  refine ⟨parent.names, hends.names_eq, hends.ne_up, ?_⟩
  simp only [tempSibling, withFileName, h, hends.parent_eq, Option.getD_some]
  exact names_push parent (redundant_append_tmp name)

/-- **The names of the sibling**: the file's own with an ending in the stead of the last one, or
one name more where there is no file name. -/
theorem names_tempSibling (p : Path) :
    (∃ front name, p.names = front ++ [name] ∧ name ≠ ".." ∧
      p.tempSibling.names = front ++ [name ++ ".tmp"]) ∨
    p.tempSibling.names = p.names ++ ["state.tmp"] := by
  cases hname : p.fileName? with
  | none =>
      refine Or.inr ?_
      simp only [tempSibling, withFileName, hname]
      exact names_push p (redundant_append_tmp "state")
  | some name =>
      obtain ⟨front, hnames⟩ := names_of_fileName hname
      exact Or.inl ⟨front, name, hnames⟩

/-- A file and its sibling start at the same place. -/
theorem isAbsolute_tempSibling (p : Path) : p.tempSibling.isAbsolute = p.isAbsolute := by
  cases hname : p.fileName? with
  | none =>
      simp only [tempSibling, withFileName, hname]
      exact isAbsolute_push p (redundant_append_tmp "state")
  | some name =>
      obtain ⟨parent, hends⟩ := endsIn_of_fileName hname
      simp only [tempSibling, withFileName, hname, hends.parent_eq, Option.getD_some]
      rw [isAbsolute_push parent (redundant_append_tmp name), hends.isAbsolute_eq]

theorem namesDirectory_push (p : Path) {name : String} (hname : redundant name = false)
    (hup : name ≠ "..") : (p.push name).namesDirectory = false := by
  unfold push
  split <;> simp [namesDirectory, hname, hup]

/-- A sibling may be a file. -/
theorem namesDirectory_tempSibling (p : Path) : p.tempSibling.namesDirectory = false := by
  unfold tempSibling withFileName
  split <;> exact namesDirectory_push _ (redundant_append_tmp _) (append_tmp_ne_up _)

/-- A path that may name a file is not the empty one. -/
theorem isEmpty_of_not_namesDirectory {p : Path} (h : p.namesDirectory = false) :
    p.isEmpty = false := by
  unfold isEmpty
  by_contra hempty
  simp only [Bool.not_eq_false, Bool.or_eq_true, beq_iff_eq] at hempty
  rcases hempty with hsegments | hsegments <;> simp [namesDirectory, hsegments, redundant] at h

/-! ## Last names -/

/-- A path that may name a file ends in a file's name. -/
theorem exists_fileName {p : Path} (h : p.namesDirectory = false) :
    ∃ name, p.fileName? = some name := by
  obtain ⟨segments⟩ := p
  cases segments with
  | nil => cases h
  | cons first rest =>
      obtain ⟨last, hlast⟩ : ∃ last, (first :: rest).getLast? = some last :=
        ⟨_, List.getLast?_eq_some_getLast (List.cons_ne_nil first rest)⟩
      simp only [namesDirectory, hlast, Bool.or_eq_false_iff, beq_eq_false_iff_ne] at h
      obtain ⟨hname, hup⟩ := h
      refine ⟨last, ?_⟩
      cases rest with
      | nil =>
          obtain rfl : first = last := Option.some.inj hlast
          simp [fileName?, strip, Text.dropEndWhile, hname, hup]
      | cons second more =>
          rw [List.getLast?_cons_cons] at hlast
          have hstrip : strip (second :: more) = second :: more := by
            apply Text.dropEndWhile_eq_self
            intro c hc
            rw [hlast] at hc
            exact Option.some.inj hc ▸ hname
          simp [fileName?, hstrip, hlast, hup]

/-- A path that ends in no file's name spells nothing, or climbs at its end. -/
theorem names_of_fileName_none {p : Path} (h : p.fileName? = none) :
    p.names = [] ∨ ∃ front, p.names = front ++ [".."] := by
  obtain ⟨segments⟩ := p
  cases segments with
  | nil => exact Or.inl rfl
  | cons first rest =>
      rw [names_cons, ← filter_strip rest]
      cases hlast : (strip rest).getLast? with
      | none =>
          rw [List.getLast?_eq_none_iff.mp hlast]
          simp only [fileName?, hlast, ite_eq_left_iff, reduceCtorEq, imp_false, not_not,
            Bool.or_eq_true, beq_iff_eq] at h
          rcases h with hredundant | rfl
          · exact Or.inl (by simp [names, hredundant])
          · exact Or.inr ⟨[], rfl⟩
      | some last =>
          have hname := redundant_getLast?_strip hlast
          simp only [fileName?, hlast, ite_eq_left_iff, reduceCtorEq, imp_false, not_not,
            beq_iff_eq] at h
          obtain ⟨front, hfront⟩ := List.getLast?_eq_some_iff.mp hlast
          refine Or.inr ⟨names ⟨[first]⟩ ++ front.filter (! redundant ·), ?_⟩
          rw [hfront, List.filter_append, ← List.append_assoc]
          simp [h, redundant]

/-- The directory that holds what a path names has one name less, unless it is the empty path. -/
theorem names_of_parent {p parent : Path} (h : p.parent? = some parent)
    (hempty : parent.isEmpty = false) :
    (∃ name, p.names = parent.names ++ [name]) ∧ parent.isAbsolute = p.isAbsolute := by
  obtain ⟨segments⟩ := p
  cases segments with
  | nil => simp [parent?] at h
  | cons first rest =>
      cases hlast : (strip rest).getLast? with
      | none =>
          have hstrip := List.getLast?_eq_none_iff.mp hlast
          simp only [parent?, hstrip] at h
          split at h
          · cases h
          · obtain rfl := Option.some.inj h
            cases hempty
      | some last =>
          obtain ⟨front, hfront⟩ := List.getLast?_eq_some_iff.mp hlast
          rw [parent?_eq hfront] at h
          obtain rfl := Option.some.inj h
          have hname := redundant_getLast?_strip hlast
          refine ⟨⟨last, ?_⟩, ?_⟩
          · rw [names_cons, ← filter_strip rest, hfront, List.filter_append, ← List.append_assoc,
              names_parentSegments]
            simp [hname]
          · rw [isAbsolute_parentSegments]
            cases rest with
            | nil => simp [strip, Text.dropEndWhile] at hfront
            | cons second more => exact (isAbsolute_cons_cons first second more).symm

/-! ## The way to the sibling -/

/-- The names that lead to the directory in which a path's sibling is. -/
def folderNames (p : Path) : List String := p.tempSibling.names.dropLast

/-- A path that ends in a file's name leads to it from the directory of its sibling. -/
theorem names_eq_folderNames {p : Path} {name : String} (h : p.fileName? = some name) :
    p.names = p.folderNames ++ [name] ∧ name ≠ ".." := by
  obtain ⟨front, hnames, hup, htemp⟩ := names_of_fileName h
  rw [folderNames, htemp, List.dropLast_concat]
  exact ⟨hnames, hup⟩

/-- A path that ends in no file's name is taken for the directory of its sibling. -/
theorem folderNames_of_fileName_none {p : Path} (h : p.fileName? = none) :
    p.folderNames = p.names := by
  simp only [folderNames, tempSibling, withFileName, h]
  rw [names_push p (redundant_append_tmp _), List.dropLast_concat]

theorem names_of_isEmpty {p : Path} (h : p.isEmpty = true) : p.names = [] := by
  simp only [isEmpty, Bool.or_eq_true, beq_iff_eq] at h
  obtain ⟨segments⟩ := p
  rcases h with rfl | rfl <;> rfl

theorem fileName_of_isEmpty {p : Path} (h : p.isEmpty = true) : p.fileName? = none := by
  simp only [isEmpty, Bool.or_eq_true, beq_iff_eq] at h
  obtain ⟨segments⟩ := p
  rcases h with rfl | rfl <;> rfl

theorem parent_of_isEmpty {p : Path} (h : p.isEmpty = true) : p.parent? = none := by
  simp only [isEmpty, Bool.or_eq_true, beq_iff_eq] at h
  obtain ⟨segments⟩ := p
  rcases h with rfl | rfl <;> rfl

theorem folderNames_of_isEmpty {p : Path} (h : p.isEmpty = true) : p.folderNames = [] := by
  rw [folderNames_of_fileName_none (fileName_of_isEmpty h), names_of_isEmpty h]

theorem names_tempSibling_eq (p : Path) :
    ∃ name, p.tempSibling.names = p.folderNames ++ [name] ∧ name ≠ ".." := by
  cases hname : p.fileName? with
  | none =>
      refine ⟨_, ?_, append_tmp_ne_up "state"⟩
      rw [folderNames_of_fileName_none hname]
      simp only [tempSibling, withFileName, hname]
      exact names_push p (redundant_append_tmp "state")
  | some name =>
      obtain ⟨front, -, -, htemp⟩ := names_of_fileName hname
      refine ⟨name ++ ".tmp", ?_, append_tmp_ne_up name⟩
      rw [folderNames, htemp, List.dropLast_concat]

/-- The directory of a file is that of its sibling. -/
theorem folderNames_of_parent {p parent : Path} {name : String} (hname : p.fileName? = some name)
    (hparent : p.parent? = some parent) : p.folderNames = parent.names := by
  obtain ⟨parent', hends⟩ := endsIn_of_fileName hname
  obtain rfl := Option.some.inj (hparent.symm.trans hends.parent_eq)
  have hsame := hends.names_eq.symm.trans (names_eq_folderNames hname).1
  exact (List.append_inj_left' hsame rfl).symm

/-- The directory of what a path names is on the way to the sibling. -/
theorem names_parent_isPrefix {p parent : Path} (hparent : p.parent? = some parent)
    (hempty : parent.isEmpty = false) : parent.names <+: p.folderNames := by
  cases hname : p.fileName? with
  | none =>
      obtain ⟨⟨name, hnames⟩, -⟩ := names_of_parent hparent hempty
      rw [folderNames_of_fileName_none hname, hnames]
      exact List.prefix_append _ _
  | some name => exact folderNames_of_parent hname hparent ▸ List.prefix_refl _

end Path

end OverlayVpn
