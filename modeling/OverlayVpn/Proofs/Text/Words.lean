import OverlayVpn.Proofs.Text.Blank

set_option autoImplicit false

/-! # Words among blanks

A text is made of words with blanks around them (`Spaced`): these are the words that it is taken
apart into (`words_of_spaced`), however many blanks there are, and trimming it changes nothing. -/

namespace OverlayVpn.Text

/-- Words in order, each not empty and without blanks, with blanks around them: any number at both
ends, and one at least between two words. -/
inductive Spaced : List String → List Char → Prop
  | blanks {gap : List Char} (hgap : ∀ c ∈ gap, isBlank c = true) : Spaced [] gap
  | word {gap rest : List Char} {word : String} {more : List String}
      (hgap : ∀ c ∈ gap, isBlank c = true) (hne : word ≠ "")
      (hword : ∀ c ∈ word.toList, isBlank c = false) (hrest : Spaced more rest)
      (hends : ∀ c, rest.head? = some c → isBlank c = true) :
      Spaced (word :: more) (gap ++ word.toList ++ rest)

/-! ## Pieces that are not empty -/

/-- The pieces of a list that are not empty. -/
def fullPieces (cs : List Char) : List (List Char) := (pieces isBlank cs).filter (! ·.isEmpty)

theorem words_eq (s : String) : words s = (fullPieces s.toList).map String.ofList := rfl

theorem fullPieces_blank {c : Char} (hc : isBlank c = true) (cs : List Char) :
    fullPieces (c :: cs) = fullPieces cs := by
  rw [fullPieces, pieces_cons_of_true hc]
  rfl

/-- Blanks in front do not count. -/
theorem fullPieces_append_left {gap : List Char} (h : ∀ c ∈ gap, isBlank c = true)
    (cs : List Char) : fullPieces (gap ++ cs) = fullPieces cs := by
  induction gap with
  | nil => rfl
  | cons c gap ih =>
      obtain ⟨hc, hgap⟩ := List.forall_mem_cons.mp h
      rw [List.cons_append, fullPieces_blank hc, ih hgap]

/-- What stands before the first blank is a piece. -/
theorem fullPieces_append {word rest : List Char} (hne : word ≠ [])
    (hword : ∀ c ∈ word, isBlank c = false)
    (hends : ∀ c, rest.head? = some c → isBlank c = true) :
    fullPieces (word ++ rest) = word :: fullPieces rest := by
  cases rest with
  | nil =>
      rw [List.append_nil, fullPieces, pieces_of_none hword]
      simp [hne, fullPieces, pieces]
  | cons c rest =>
      have hc : isBlank c = true := hends c rfl
      rw [fullPieces_blank hc, fullPieces, pieces_append hword hc]
      simp [hne, fullPieces]

/-- **Words among blanks are taken apart.** -/
theorem words_of_spaced {ws : List String} {s : String} (h : Spaced ws s.toList) : words s = ws := by
  rw [words_eq]
  generalize s.toList = cs at h
  induction h with
  | blanks hgap =>
      have hnil := fullPieces_append_left hgap []
      rw [List.append_nil] at hnil
      rw [hnil]
      rfl
  | @word gap rest word more hgap hne hword hrest hends ih =>
      have hlist : word.toList ≠ [] := fun hnil => hne (String.toList_eq_nil_iff.mp hnil)
      rw [List.append_assoc, fullPieces_append_left hgap, fullPieces_append hlist hword hends,
        List.map_cons, String.ofList_toList, ih]

/-- A blank in front changes no word. -/
theorem Spaced.cons_blank {c : Char} (hc : isBlank c = true) {ws : List String} {cs : List Char}
    (h : Spaced ws cs) : Spaced ws (c :: cs) := by
  cases h with
  | blanks hgap => exact .blanks (List.forall_mem_cons.mpr ⟨hc, hgap⟩)
  | @word gap rest word more hgap hne hword hrest hends =>
      exact .word (List.forall_mem_cons.mpr ⟨hc, hgap⟩) hne hword hrest hends

/-- A character that is no blank is the first of a word. -/
theorem spaced_word {c : Char} (hc : isBlank c = false) {tail rest : List Char}
    (htail : ∀ d ∈ tail, isBlank d = false) {ws : List String} (hrest : Spaced ws rest)
    (hends : ∀ d, rest.head? = some d → isBlank d = true) :
    Spaced (String.ofList (c :: tail) :: ws) (c :: (tail ++ rest)) := by
  have hlist : (String.ofList (c :: tail)).toList = c :: tail := String.toList_ofList
  have hspaced : Spaced (String.ofList (c :: tail) :: ws)
      ([] ++ (String.ofList (c :: tail)).toList ++ rest) := by
    refine .word (by simp) (fun h => ?_) ?_ hrest hends
    · rw [h] at hlist
      cases hlist
    · rw [hlist]
      exact List.forall_mem_cons.mpr ⟨hc, htail⟩
  rwa [hlist] at hspaced

/-- Every text is made of words among blanks. -/
theorem exists_spaced (cs : List Char) : ∃ ws, Spaced ws cs := by
  induction cs with
  | nil => exact ⟨[], .blanks (by simp)⟩
  | cons c cs ih =>
      obtain ⟨ws, hws⟩ := ih
      by_cases hc : isBlank c = true
      · exact ⟨ws, hws.cons_blank hc⟩
      rw [Bool.not_eq_true] at hc
      -- the character is a word of its own, or the first of the word that follows
      by_cases hends : ∀ d, cs.head? = some d → isBlank d = true
      · exact ⟨_, spaced_word hc (List.forall_mem_nil _) hws hends⟩
      · obtain ⟨d, hd, hdword⟩ : ∃ d, cs.head? = some d ∧ isBlank d = false := by simpa using hends
        cases hws with
        | blanks hgap =>
            have hdblank := hgap d (List.mem_of_head? hd)
            rw [hdword] at hdblank
            cases hdblank
        | @word gap rest word more hgap hne hword hrest hends' =>
            obtain rfl : gap = [] := by
              cases gap with
              | nil => rfl
              | cons e gap =>
                  obtain rfl := Option.some.inj hd
                  rw [hgap e List.mem_cons_self] at hdword
                  cases hdword
            exact ⟨_, spaced_word hc hword hrest hends'⟩

/-- **The words of a text are those it is made of.** -/
theorem spaced_iff {ws : List String} {s : String} : Spaced ws s.toList ↔ words s = ws := by
  refine ⟨words_of_spaced, ?_⟩
  rintro rfl
  obtain ⟨ws, hws⟩ := exists_spaced s.toList
  rwa [words_of_spaced hws]

/-! ## Trimming -/

theorem toList_trim (s : String) : (trim s).toList = trimmed s.toList := String.toList_ofList

/-- Blanks at the end do not count. -/
theorem fullPieces_append_right (cs : List Char) {gap : List Char}
    (h : ∀ c ∈ gap, isBlank c = true) : fullPieces (cs ++ gap) = fullPieces cs := by
  induction gap generalizing cs with
  | nil => rw [List.append_nil]
  | cons c gap ih =>
      obtain ⟨hc, hgap⟩ := List.forall_mem_cons.mp h
      rw [← List.singleton_append, ← List.append_assoc, ih _ hgap, fullPieces,
        pieces_append_cons hc, List.filter_append]
      simp [fullPieces, pieces]

/-- Trimming keeps the words. -/
theorem words_trim (s : String) : words (trim s) = words s := by
  have hfront : ∀ c ∈ s.toList.takeWhile isBlank, isBlank c = true := fun c hc =>
    List.all_eq_true.mp List.all_takeWhile c hc
  obtain ⟨dropped, hsplit, hdropped⟩ := dropEndWhile_append isBlank (s.toList.dropWhile isBlank)
  have hsame : fullPieces (trimmed s.toList) = fullPieces s.toList := by
    calc fullPieces (trimmed s.toList)
        = fullPieces (trimmed s.toList ++ dropped) := (fullPieces_append_right _ hdropped).symm
      _ = fullPieces (s.toList.dropWhile isBlank) := by rw [hsplit, trimmed]
      _ = fullPieces (s.toList.takeWhile isBlank ++ s.toList.dropWhile isBlank) :=
          (fullPieces_append_left hfront _).symm
      _ = fullPieces s.toList := by rw [List.takeWhile_append_dropWhile]
  rw [words_eq, words_eq, toList_trim, hsame]

/-- A trimmed text starts with its first word. -/
theorem start_trimmed_of_spaced {word : String} {more : List String} {cs : List Char}
    (h : Spaced (word :: more) cs) : word.toList <+: trimmed cs := by
  cases h with
  | @word gap rest _ _ hgap hne hword hrest hends =>
      have hlist : word.toList ≠ [] := fun hnil => hne (String.toList_eq_nil_iff.mp hnil)
      have hfirst : (word.toList ++ rest).dropWhile isBlank = word.toList ++ rest := by
        refine dropWhile_eq_self fun c hc => hword c (List.mem_of_head? ?_)
        rwa [List.head?_append, List.head?_eq_some_head hlist, Option.some_or,
          ← List.head?_eq_some_head hlist] at hc
      have hlast : isBlank (word.toList.getLast hlist) = false := hword _ (List.getLast_mem hlist)
      rw [trimmed, List.append_assoc, List.dropWhile_append_of_pos hgap, hfirst,
        ← List.dropLast_concat_getLast hlist, List.append_assoc, List.singleton_append,
        dropEndWhile_append_of_neg hlast]
      exact ⟨dropEndWhile isBlank rest, by simp⟩

end OverlayVpn.Text
