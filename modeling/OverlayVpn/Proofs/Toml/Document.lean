import OverlayVpn.Proofs.Toml.Values

set_option autoImplicit false

/-! # A written document is read back

A document is written line by line: the entries that are no tables first, then a blank line, a
header and the entries for each table. Each line is read as the statement that it is
(`statements_lines`), and the statements build the entries again (`read_text`), as long as no key
is given twice. -/

namespace OverlayVpn.Toml

open Text

/-! ## Keys -/

/-- A bare key: a word of letters, digits, underscores and dashes. -/
def IsBare (name : String) : Prop := name.toList ≠ [] ∧ ∀ c ∈ name.toList, isBare c = true

theorem isBare_iff (name : String) :
    IsBare name ↔ (!name.toList.isEmpty && name.toList.all isBare) = true := by
  simp [IsBare]

instance (name : String) : Decidable (IsBare name) := decidable_of_iff' _ (isBare_iff name)

/-- A bare key starts with nothing that means something else. -/
theorem IsBare.head {name : String} (h : IsBare name) :
    ∃ c more, name.toList = c :: more ∧ isBare c = true := by
  obtain ⟨c, more, hname⟩ := List.exists_cons_of_ne_nil h.1
  exact ⟨c, more, hname, h.2 c (hname ▸ List.mem_cons_self)⟩

/-- A bare key is read as long as its characters stand there. -/
theorem simpleKey_bare {name : String} (h : IsBare name) {c : Char} (hc : isBare c = false)
    (rest : List Char) : simpleKey (name.toList ++ c :: rest) = some (name, c :: rest) := by
  obtain ⟨d, more, hname, hd⟩ := h.head
  have htake : (name.toList ++ c :: rest).takeWhile isBare = name.toList := by
    rw [List.takeWhile_append_of_pos h.2, List.takeWhile_cons_of_neg (by simp [hc]), List.append_nil]
  have hempty : name.toList.isEmpty = false := by rw [hname]; rfl
  unfold simpleKey
  split
  · next heq =>
      rw [hname] at heq
      rw [(List.cons.inj heq).1] at hd
      cases hd
  · next heq =>
      rw [hname] at heq
      rw [(List.cons.inj heq).1] at hd
      cases hd
  · simp only [htake, hempty, List.drop_left, String.ofList_toList]
    rfl

theorem skipSpace_of_head {c : Char} (hspace : c ≠ ' ') (htab : c ≠ '\t') (rest : List Char) :
    skipSpace (c :: rest) = c :: rest :=
  List.dropWhile_cons_of_neg (by simp [hspace, htab])

/-- A bare key is read up to what ends it, and the blanks after it are dropped. -/
theorem key_bare {name : String} (h : IsBare name) {c d : Char} (hc : isBare c = false)
    (rest : List Char) {more : List Char} (hskip : skipSpace (c :: rest) = d :: more) (hd : d ≠ '.') :
    key (name.toList ++ c :: rest) = some ([name], d :: more) := by
  obtain ⟨e, tail, hname, he⟩ := h.head
  have hstart : skipSpace (name.toList ++ c :: rest) = name.toList ++ c :: rest := by
    rw [hname]
    refine skipSpace_of_head ?_ ?_ _ <;> rintro rfl <;> cases he
  rw [key, maxDepth, dottedKey, hstart]
  simp only [simpleKey_bare h hc rest, Option.bind_eq_bind, Option.bind_some, hskip]
  split
  · next heq => exact absurd (List.cons.inj heq).1 hd
  · rfl

/-! ## Lines -/

/-- That a line, up to its line feed, is read as a statement or as none. -/
def LineReads (line : List Char) (found : Option Statement) : Prop :=
  ∀ rest, statement (line ++ '\n' :: rest) = some (found, '\n' :: rest)

theorem lineReads_blank : LineReads [] none := fun _ => rfl

theorem statement_header (cs : List Char) :
    statement ('[' :: cs) = (header cs).map fun (s, rest) => (some s, rest) := rfl

theorem lineReads_header {name : String} (h : IsBare name) :
    LineReads ('[' :: (name.toList ++ [']'])) (some (.table [name])) := by
  intro rest
  have hkey := key_bare h (c := ']') rfl ('\n' :: rest) rfl (by decide)
  obtain ⟨d, more, hname, hd⟩ := h.head
  have hopen : d ≠ '[' := by rintro rfl; cases hd
  have hheader : header (name.toList ++ ']' :: '\n' :: rest) =
      some (.table [name], '\n' :: rest) := by
    rw [hname, List.cons_append] at hkey ⊢
    rw [header]
    · rw [hkey]
      rfl
    · rintro _ heq
      exact hopen (List.cons.inj heq).1
  rw [List.cons_append, List.append_assoc, statement_header]
  exact congrArg (Option.map _) hheader

/-- The characters of a line that gives a key its value. -/
def assignmentLine (name : String) (v : Toml) : List Char :=
  name.toList ++ ' ' :: '=' :: ' ' :: (valueText v).toList

theorem assignment_line {name : String} (h : IsBare name) {v : Toml} (hv : Writable maxDepth v)
    {rest : List Char} (hrest : Closes rest) :
    assignment (value maxDepth) (assignmentLine name v ++ rest) = some (([name], v), rest) := by
  obtain ⟨c, more, htext, hc⟩ := hv.head
  simp only [List.mem_cons, List.not_mem_nil, or_false, not_or] at hc
  have hkey := key_bare h (c := ' ') rfl ('=' :: ' ' :: ((valueText v).toList ++ rest)) rfl
    (by decide)
  have hskip : skipSpace (' ' :: ((valueText v).toList ++ rest)) = (valueText v).toList ++ rest := by
    rw [htext]
    exact skipSpace_of_head hc.1.1 hc.1.2.1 _
  have hpast : past '=' ('=' :: ' ' :: ((valueText v).toList ++ rest)) =
      some (' ' :: ((valueText v).toList ++ rest)) := rfl
  simp only [assignmentLine, List.append_assoc, List.cons_append, assignment, hkey, hpast, hskip,
    value_valueText hv hrest, Option.bind_eq_bind, Option.bind_some]
  rfl

theorem lineReads_assignment {name : String} (h : IsBare name) {v : Toml} (hv : Writable maxDepth v) :
    LineReads (assignmentLine name v) (some (.assign [name] v)) := by
  intro rest
  have hread := assignment_line h hv (show Closes ('\n' :: rest) from ⟨'\n', rest, rfl, by simp⟩)
  obtain ⟨c, more, hname, hc⟩ := h.head
  have hne : ∀ d ∈ [' ', '\t', '\n', '\r', '[', '#'], c ≠ d := by
    rintro d hd rfl
    simp only [List.mem_cons, List.not_mem_nil, or_false] at hd
    rcases hd with rfl | rfl | rfl | rfl | rfl | rfl <;> cases hc
  simp only [List.mem_cons, List.not_mem_nil, or_false, forall_eq_or_imp, forall_eq] at hne
  obtain ⟨hspace, htab, hfeed, hreturn, hopen, hcomment⟩ := hne
  rw [assignmentLine, hname] at hread ⊢
  simp only [List.cons_append, List.append_assoc] at hread ⊢
  rw [statement, skipSpace_of_head hspace htab]
  simp [newLine?, hfeed, hreturn, hread]

/-- Lines, each with its line feed. -/
def unlined (lines : List (List Char × Option Statement)) : List Char :=
  lines.flatMap fun line => line.1 ++ ['\n']

theorem unlined_append (lines more : List (List Char × Option Statement)) :
    unlined (lines ++ more) = unlined lines ++ unlined more := List.flatMap_append

theorem length_le_unlined (lines : List (List Char × Option Statement)) :
    lines.length ≤ (unlined lines).length := by
  induction lines with
  | nil => exact Nat.le_refl 0
  | cons line lines ih =>
      rw [unlined] at ih ⊢
      simp only [List.flatMap_cons, List.length_append, List.length_cons, List.length_nil]
      omega

theorem endLine_feed (rest : List Char) : endLine ('\n' :: rest) = some rest := rfl

/-- **Lines are read as their statements.** -/
theorem statements_lines {lines : List (List Char × Option Statement)}
    (h : ∀ line ∈ lines, LineReads line.1 line.2) {steps : Nat} (hsteps : lines.length < steps) :
    statements steps (unlined lines) =
      some (lines.flatMap fun line => line.2.toList) := by
  obtain ⟨more, rfl⟩ := Nat.exists_eq_add_of_lt hsteps
  clear hsteps
  induction lines with
  | nil => rfl
  | cons line lines ih =>
      obtain ⟨hline, hothers⟩ := List.forall_mem_cons.mp h
      have hread := ih hothers
      rw [unlined] at hread ⊢
      rw [List.flatMap_cons, List.append_assoc, List.singleton_append, List.length_cons,
        Nat.add_right_comm _ 1, statements, hline]
      simp only [Option.bind_eq_bind, Option.bind_some, endLine_feed, List.flatMap_cons]
      cases lines with
      | nil => simp
      | cons next lines =>
          have hmore : ((next :: lines).flatMap fun line => line.1 ++ ['\n']).isEmpty = false := by
            simp
          rw [hmore, hread]
          rfl

/-! ## Building the entries -/

/-- The statement that gives a key its value. -/
def assigning (entry : String × Toml) : Statement := .assign [entry.1] entry.2

/-- A table under a header, as an entry. -/
def headed (part : String × Entries) : String × Toml := (part.1, .table .header part.2)

/-- The statements of a table: its header, and its entries. -/
def heading (part : String × Entries) : List Statement :=
  .table [part.1] :: part.2.map assigning

theorem lookup_none {entries : Entries} {name : String} (h : name ∉ entries.map (·.1)) :
    entries.lookup name = none := by
  refine List.lookup_eq_none_iff.mpr fun e he => bne_iff_ne.mpr ?_
  rintro rfl
  exact h (List.mem_map_of_mem he)

/-- A value is put under a key that is not there. -/
theorem putAt_new {form : TableForm} (hform : form ≠ .dotted) {entries : Entries} {e : String × Toml}
    (h : e.1 ∉ entries.map (·.1)) :
    putAt [e.1] e.2 (form, entries) = some (form, entries ++ [e]) := by
  simp [putAt, cutLast, within, lookup_none h, hform]

theorem add_assigning {entries : Entries} {e : String × Toml} (h : e.1 ∉ entries.map (·.1)) :
    Document.add ([], .header, entries) (assigning e) = some ([], .header, entries ++ [e]) := by
  simp [Document.add, assigning, within, putAt_new (show TableForm.header ≠ .dotted by decide) h]

/-- A header makes a table that has nothing yet. -/
theorem add_heading {current : List String} {entries : Entries} {name : String}
    (h : name ∉ entries.map (·.1)) :
    Document.add (current, .header, entries) (.table [name]) =
      some ([name], .header, entries ++ [headed (name, [])]) := by
  simp [Document.add, openTable, cutLast, within, lookup_none h, headed]

theorem lookup_last {entries : Entries} {e : String × Toml} (h : e.1 ∉ entries.map (·.1)) :
    (entries ++ [e]).lookup e.1 = some e.2 := by
  rw [List.lookup_append, lookup_none h, Option.none_or, List.lookup_cons_self]

theorem replace_last {entries : Entries} {name : String} (h : name ∉ entries.map (·.1))
    (old new : Toml) :
    Entries.replace (entries ++ [(name, old)]) name new = entries ++ [(name, new)] := by
  have hsame : entries.map (fun e => if e.1 == name then (name, new) else e) = entries := by
    refine (List.map_congr_left fun e he => if_neg ?_).trans (List.map_id _)
    rintro heq
    exact h (beq_iff_eq.mp heq ▸ List.mem_map_of_mem he)
  rw [Entries.replace, List.map_append, hsame, List.map_singleton, if_pos (beq_self_eq_true name)]

/-- An entry under a header goes to its table. -/
theorem add_inside {entries : Entries} {name : String} (hname : name ∉ entries.map (·.1))
    {inside : Entries} {e : String × Toml} (h : e.1 ∉ inside.map (·.1)) :
    Document.add ([name], .header, entries ++ [headed (name, inside)]) (assigning e) =
      some ([name], .header, entries ++ [headed (name, inside ++ [e])]) := by
  have hfound := lookup_last (e := headed (name, inside)) hname
  have hput := putAt_new (show TableForm.header ≠ .dotted by decide) h
  simp only [headed] at hfound ⊢
  simp [Document.add, assigning, within, hfound, hput, replace_last hname]

/-! ## Whole documents -/

/-- A document of entries `plain`, which are no tables, and of `parts` under headers. No key is
given twice, keys are bare and values can be written. -/
structure Laid (plain : Entries) (parts : List (String × Entries)) : Prop where
  keys : (plain.map (·.1) ++ parts.map (·.1)).Nodup
  bare : ∀ p ∈ parts, IsBare p.1
  plain : ∀ e ∈ plain, IsBare e.1 ∧ Writable maxDepth e.2
  inside : ∀ p ∈ parts, (p.2.map (·.1)).Nodup ∧ ∀ e ∈ p.2, IsBare e.1 ∧ Writable maxDepth e.2

/-- Where entries can be added one at a time they can be added one after the other. -/
theorem foldlM_assigning {place : Entries → Document}
    (hplace : ∀ {inside : Entries} {e : String × Toml}, e.1 ∉ inside.map (·.1) →
      (place inside).add (assigning e) = some (place (inside ++ [e])))
    {inside more : Entries} (h : ((inside ++ more).map (·.1)).Nodup) :
    (more.map assigning).foldlM Document.add (place inside) = some (place (inside ++ more)) := by
  induction more generalizing inside with
  | nil => simp
  | cons e more ih =>
      have hnew : e.1 ∉ inside.map (·.1) := by
        intro hmem
        rw [List.map_append, List.nodup_append] at h
        exact h.2.2 _ hmem _ (by simp) rfl
      have hmore := ih (show ((inside ++ [e] ++ more).map (·.1)).Nodup by simpa using h)
      rw [List.map_cons, List.foldlM_cons, hplace hnew]
      simpa using hmore

theorem foldlM_heading {parts : List (String × Entries)} (current : List String) {entries : Entries}
    (hkeys : (entries.map (·.1) ++ parts.map (·.1)).Nodup)
    (hinside : ∀ p ∈ parts, (p.2.map (·.1)).Nodup) :
    ∃ last, (parts.flatMap heading).foldlM Document.add (current, .header, entries) =
      some (last, .header, entries ++ parts.map headed) := by
  induction parts generalizing current entries with
  | nil => exact ⟨current, by simp⟩
  | cons part parts ih =>
      obtain ⟨hpart, hothers⟩ := List.forall_mem_cons.mp hinside
      have hnew : part.1 ∉ entries.map (·.1) := by
        intro hmem
        exact (List.nodup_append.mp hkeys).2.2 _ hmem _ (by simp) rfl
      have hkeys' : ((entries ++ [headed part]).map (·.1) ++ parts.map (·.1)).Nodup := by
        simpa [headed] using hkeys
      obtain ⟨last, hlast⟩ := ih [part.1] hkeys' hothers
      refine ⟨last, ?_⟩
      have hwhole := foldlM_assigning (add_inside hnew)
        (show (([] ++ part.2 : Entries).map (·.1)).Nodup by simpa using hpart)
      rw [List.flatMap_cons, heading, List.cons_append, List.foldlM_cons, add_heading hnew,
        Option.bind_eq_bind, Option.bind_some, List.foldlM_append, hwhole, Option.bind_eq_bind,
        Option.bind_some, List.nil_append]
      simpa using hlast

/-- The statements of a document build its entries. -/
theorem ofStatements_laid {plain : Entries} {parts : List (String × Entries)} (h : Laid plain parts) :
    ofStatements (plain.map assigning ++ parts.flatMap heading) =
      some (plain ++ parts.map headed) := by
  have hplain := foldlM_assigning add_assigning
    (show (([] ++ plain : Entries).map (·.1)).Nodup by simpa using (List.nodup_append.mp h.keys).1)
  obtain ⟨last, hlast⟩ := foldlM_heading [] h.keys fun p hp => (h.inside p hp).1
  rw [ofStatements, List.foldlM_append, hplain, List.nil_append]
  simp only [Option.bind_eq_bind, Option.bind_some, hlast]
  rfl

/-! ## The lines of a document -/

/-- The lines of entries that are no tables, with their statements. -/
def plainLines (entries : Entries) : List (List Char × Option Statement) :=
  entries.map fun e => (assignmentLine e.1 e.2, some (assigning e))

/-- The lines of a table: a blank one, its header, and its entries. -/
def partLines (part : String × Entries) : List (List Char × Option Statement) :=
  ([], none) :: ('[' :: (part.1.toList ++ [']']), some (.table [part.1])) :: plainLines part.2

theorem Writable.isTable {depth : Nat} {v : Toml} (h : Writable depth v) : isTable v = false := by
  cases h <;> rfl

theorem toList_plainText {entries : Entries} (h : ∀ e ∈ entries, isTable e.2 = false) :
    (plainText entries).toList = unlined (plainLines entries) := by
  have hall : entries.filter (! isTable ·.2) = entries :=
    List.filter_eq_self.mpr fun e he => by rw [h e he]; rfl
  rw [plainText, hall, toList_join, unlined, plainLines, List.flatMap_map, List.flatMap_map]
  congr 1
  funext e
  simp [assignmentText, assignmentLine]

/-- The text of a table: a blank line, its header and its entries. -/
def partText (part : String × Entries) : String :=
  "\n[" ++ part.1 ++ "]\n" ++ plainText part.2

theorem toList_partTexts {parts : List (String × Entries)}
    (h : ∀ p ∈ parts, ∀ e ∈ p.2, isTable e.2 = false) :
    (parts.map partText).flatMap String.toList = unlined (parts.flatMap partLines) := by
  induction parts with
  | nil => rfl
  | cons part parts ih =>
      obtain ⟨hpart, hothers⟩ := List.forall_mem_cons.mp h
      rw [List.map_cons, List.flatMap_cons, List.flatMap_cons, unlined_append, ih hothers, partText]
      simp only [String.toList_append, toList_plainText hpart]
      simp [unlined, partLines]

/-- A document is its plain entries and its tables, one after another. -/
theorem text_headed {plain : Entries} (hplain : ∀ e ∈ plain, isTable e.2 = false)
    (parts : List (String × Entries)) :
    text (plain ++ parts.map headed) = plainText plain ++ join "" (parts.map partText) := by
  have hnone : (parts.map headed).filter (! isTable ·.2) = [] := by
    refine List.filter_eq_nil_iff.mpr fun e he => ?_
    obtain ⟨p, -, rfl⟩ := List.mem_map.mp he
    simp [headed, isTable]
  have hentries : plainText (plain ++ parts.map headed) = plainText plain := by
    rw [plainText, plainText, List.filter_append, hnone, List.append_nil]
  rw [text, hentries, List.filterMap_append, List.filterMap_eq_nil_iff.mpr, List.filterMap_map,
    List.nil_append]
  · exact congrArg (plainText plain ++ join "" ·) (congrFun List.filterMap_eq_map parts)
  · intro e he
    have htable := hplain e he
    obtain ⟨name, v⟩ := e
    cases v with
    | table => cases htable
    | _ => rfl

/-- A document is its lines. -/
theorem toList_text {plain : Entries} {parts : List (String × Entries)} (h : Laid plain parts) :
    (text (plain ++ parts.map headed)).toList =
      unlined (plainLines plain ++ parts.flatMap partLines) := by
  have hplain : ∀ e ∈ plain, isTable e.2 = false := fun e he => (h.plain e he).2.isTable
  rw [text_headed hplain, String.toList_append, toList_plainText hplain, toList_join,
    unlined_append, toList_partTexts fun p hp e he => ((h.inside p hp).2 e he).2.isTable]

theorem lineReads_plain {entries : Entries}
    (h : ∀ e ∈ entries, IsBare e.1 ∧ Writable maxDepth e.2) :
    ∀ line ∈ plainLines entries, LineReads line.1 line.2 := by
  intro line hline
  obtain ⟨e, he, rfl⟩ := List.mem_map.mp hline
  exact lineReads_assignment (h e he).1 (h e he).2

/-- **A document is read back.** -/
theorem read_text {plain : Entries} {parts : List (String × Entries)} (h : Laid plain parts) :
    read (text (plain ++ parts.map headed)) = some (plain ++ parts.map headed) := by
  have hlines : ∀ line ∈ plainLines plain ++ parts.flatMap partLines,
      LineReads line.1 line.2 := by
    intro line hline
    rcases List.mem_append.mp hline with hline | hline
    · exact lineReads_plain h.plain line hline
    · obtain ⟨p, hp, hline⟩ := List.mem_flatMap.mp hline
      rw [partLines, List.mem_cons, List.mem_cons] at hline
      rcases hline with rfl | rfl | hline
      · exact lineReads_blank
      · exact lineReads_header (h.bare p hp)
      · exact lineReads_plain (h.inside p hp).2 line hline
  have hmark : ∀ rest, (text (plain ++ parts.map headed)).toList ≠ '\uFEFF' :: rest := by
    intro rest heq
    have hsome := statements_lines hlines (Nat.lt_succ_self _)
    rw [← toList_text h, heq] at hsome
    cases hsome
  have hfound : (plainLines plain ++ parts.flatMap partLines).flatMap
      (fun line => line.2.toList) = plain.map assigning ++ parts.flatMap heading := by
    have hassign : ∀ entries : Entries, (plainLines entries).flatMap (fun line => line.2.toList) =
        entries.map assigning := fun entries => by
      induction entries with
      | nil => rfl
      | cons e entries ih => exact congrArg (assigning e :: ·) ih
    rw [List.flatMap_append, List.flatMap_assoc, hassign]
    congr 2
    funext part
    exact congrArg (Statement.table [part.1] :: ·) (hassign part.2)
  have hsteps := length_le_unlined (plainLines plain ++ parts.flatMap partLines)
  rw [read]
  split
  · next heq => exact absurd heq (hmark _)
  · rw [toList_text h, statements_lines hlines (by omega), hfound, Option.bind_some,
      ofStatements_laid h]

end OverlayVpn.Toml
