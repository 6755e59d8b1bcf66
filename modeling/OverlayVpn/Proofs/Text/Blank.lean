import OverlayVpn.Text.Blank

set_option autoImplicit false

/-! # Taking texts apart

The pieces of a list and its cut at a separator, for a list that is known to be made of parts
without the separator; the lines of a text of which each ends with a line feed; and trimming, which
drops the blanks around a text, leaves one alone that neither starts nor ends with a blank, and keeps
what a text starts with when more follows. -/

namespace OverlayVpn.Text

variable {α : Type}

/-! ## Pieces -/

theorem pieces_ne_nil (p : α → Bool) (xs : List α) : pieces p xs ≠ [] := by
  induction xs with
  | nil => simp [pieces]
  | cons x xs ih =>
      unfold pieces
      split
      · simp
      · split <;> simp

theorem pieces_cons_of_true {p : α → Bool} {x : α} (hx : p x = true) (xs : List α) :
    pieces p (x :: xs) = [] :: pieces p xs := by
  have hne := pieces_ne_nil p xs
  cases hps : pieces p xs with
  | nil => exact absurd hps hne
  | cons piece more => simp [pieces, hps, hx]

theorem pieces_cons_of_false {p : α → Bool} {x : α} (hx : p x = false) {xs piece : List α}
    {more : List (List α)} (h : pieces p xs = piece :: more) :
    pieces p (x :: xs) = (x :: piece) :: more := by
  simp [pieces, h, hx]

/-- A list without separators is one piece. -/
theorem pieces_of_none {p : α → Bool} {xs : List α} (h : ∀ x ∈ xs, p x = false) :
    pieces p xs = [xs] := by
  induction xs with
  | nil => rfl
  | cons x xs ih =>
      exact pieces_cons_of_false (h x (by simp)) (ih fun y hy => h y (List.mem_cons_of_mem x hy))

/-- A separator divides the pieces before it from those after it. -/
theorem pieces_append_cons {p : α → Bool} {c : α} (hc : p c = true) (xs rest : List α) :
    pieces p (xs ++ c :: rest) = pieces p xs ++ pieces p rest := by
  induction xs with
  | nil => exact pieces_cons_of_true hc rest
  | cons x xs ih =>
      obtain ⟨piece, more, hpieces⟩ := List.exists_cons_of_ne_nil (pieces_ne_nil p xs)
      have hmore : pieces p (xs ++ c :: rest) = piece :: (more ++ pieces p rest) := by
        rw [ih, hpieces, List.cons_append]
      rw [List.cons_append]
      cases hx : p x with
      | true => rw [pieces_cons_of_true hx, pieces_cons_of_true hx, ih, List.cons_append]
      | false =>
          rw [pieces_cons_of_false hx hmore, pieces_cons_of_false hx hpieces, List.cons_append]

/-- What stands before the first separator is the first piece. -/
theorem pieces_append {p : α → Bool} {xs : List α} (h : ∀ x ∈ xs, p x = false) {c : α}
    (hc : p c = true) (rest : List α) : pieces p (xs ++ c :: rest) = xs :: pieces p rest := by
  rw [pieces_append_cons hc, pieces_of_none h, List.singleton_append]

/-- No piece holds a separator. -/
theorem not_of_mem_pieces {p : α → Bool} {xs piece : List α} (h : piece ∈ pieces p xs) :
    ∀ x ∈ piece, p x = false := by
  induction xs generalizing piece with
  | nil =>
      obtain rfl := List.mem_singleton.mp h
      simp
  | cons y xs ih =>
      obtain ⟨first, more, hpieces⟩ := List.exists_cons_of_ne_nil (pieces_ne_nil p xs)
      rw [hpieces] at ih
      cases hy : p y with
      | true =>
          rw [pieces_cons_of_true hy, hpieces, List.mem_cons] at h
          rcases h with rfl | h
          · simp
          · exact ih h
      | false =>
          rw [pieces_cons_of_false hy hpieces, List.mem_cons] at h
          rcases h with rfl | h
          · exact List.forall_mem_cons.mpr ⟨hy, ih List.mem_cons_self⟩
          · exact ih (List.mem_cons_of_mem _ h)

/-- What stands in a list is a separator or stands in a piece. -/
theorem mem_or_mem_pieces {p : α → Bool} {xs : List α} {x : α} (h : x ∈ xs) :
    p x = true ∨ ∃ piece ∈ pieces p xs, x ∈ piece := by
  induction xs with
  | nil => cases h
  | cons y xs ih =>
      obtain ⟨first, more, hpieces⟩ := List.exists_cons_of_ne_nil (pieces_ne_nil p xs)
      rw [hpieces] at ih
      cases hy : p y with
      | true =>
          rw [pieces_cons_of_true hy, hpieces]
          rcases List.mem_cons.mp h with rfl | h
          · exact Or.inl hy
          · exact (ih h).imp_right fun ⟨piece, hpiece, hx⟩ => ⟨piece, List.mem_cons_of_mem _ hpiece, hx⟩
      | false =>
          rw [pieces_cons_of_false hy hpieces]
          rcases List.mem_cons.mp h with rfl | h
          · exact Or.inr ⟨_, List.mem_cons_self, List.mem_cons_self⟩
          · rcases ih h with hx | ⟨piece, hpiece, hx⟩
            · exact Or.inl hx
            · rcases List.mem_cons.mp hpiece with rfl | hpiece
              · exact Or.inr ⟨_, List.mem_cons_self, List.mem_cons_of_mem y hx⟩
              · exact Or.inr ⟨piece, List.mem_cons_of_mem _ hpiece, hx⟩

/-- A list is its pieces with the separator between them. -/
theorem intercalate_pieces [DecidableEq α] (c : α) (xs : List α) :
    [c].intercalate (pieces (· == c) xs) = xs := by
  induction xs with
  | nil => rfl
  | cons x xs ih =>
      obtain ⟨first, more, hpieces⟩ := List.exists_cons_of_ne_nil (pieces_ne_nil (· == c) xs)
      rw [hpieces] at ih
      cases hx : x == c with
      | true =>
          rw [pieces_cons_of_true (p := (· == c)) hx, hpieces, List.intercalate_cons_cons, ih,
            beq_iff_eq.mp hx]
          rfl
      | false =>
          rw [pieces_cons_of_false (p := (· == c)) hx hpieces]
          cases more with
          | nil => rw [List.intercalate_singleton] at ih ⊢; rw [ih]
          | cons second more =>
              rw [List.intercalate_cons_cons] at ih ⊢
              rw [← ih]
              rfl

/-- Parts without separators are the pieces of what they make with a separator between them. -/
theorem pieces_intercalate {p : α → Bool} {c : α} (hc : p c = true) {parts : List (List α)}
    (hne : parts ≠ []) (h : ∀ part ∈ parts, ∀ x ∈ part, p x = false) :
    pieces p ([c].intercalate parts) = parts := by
  induction parts with
  | nil => exact absurd rfl hne
  | cons part parts ih =>
      obtain ⟨hpart, hparts⟩ := List.forall_mem_cons.mp h
      cases parts with
      | nil => rw [List.intercalate_singleton, pieces_of_none hpart]
      | cons next parts =>
          rw [List.intercalate_cons_cons, List.append_assoc, List.singleton_append,
            pieces_append hpart hc, ih (List.cons_ne_nil next parts) hparts]

/-- Texts joined without anything between them. -/
theorem toList_join (texts : List String) : (join "" texts).toList = texts.flatMap String.toList := by
  rw [join, String.toList_intercalate, String.toList_empty, List.flatMap_def]
  generalize texts.map String.toList = parts
  induction parts with
  | nil => rfl
  | cons part parts ih =>
      cases parts with
      | nil => simp
      | cons next parts =>
          rw [List.intercalate_cons_cons, ih, List.append_nil, List.flatten_cons (l := part)]

/-! ## Cutting -/

/-- A text is cut at the first separator. -/
theorem cutAt_append {c : Char} {xs : List Char} (h : c ∉ xs) (rest : List Char) :
    cutAt c (xs ++ c :: rest) = some (xs, rest) := by
  induction xs with
  | nil => simp [cutAt]
  | cons x xs ih =>
      have hx : x ≠ c := fun hxc => h (by simp [hxc])
      have hxs : c ∉ xs := fun hmem => h (List.mem_cons_of_mem x hmem)
      rw [List.cons_append, cutAt, if_neg hx, ih hxs]
      rfl

/-- What it takes for a list to be cut. -/
theorem cutAt_eq_some_iff {c : Char} {cs xs rest : List Char} :
    cutAt c cs = some (xs, rest) ↔ cs = xs ++ c :: rest ∧ c ∉ xs := by
  constructor
  · intro h
    induction cs generalizing xs with
    | nil => cases h
    | cons d cs ih =>
        unfold cutAt at h
        split at h
        · next hd =>
            obtain ⟨rfl, rfl⟩ := Prod.mk.inj (Option.some.inj h)
            exact ⟨by rw [hd]; rfl, List.not_mem_nil⟩
        · next hd =>
            obtain ⟨⟨before, after⟩, hcut, heq⟩ := Option.map_eq_some_iff.mp h
            obtain ⟨rfl, rfl⟩ := Prod.mk.inj heq
            obtain ⟨rfl, hnone⟩ := ih hcut
            exact ⟨rfl, fun hmem => (List.mem_cons.mp hmem).elim (fun heq => hd heq.symm) hnone⟩
  · rintro ⟨rfl, h⟩
    exact cutAt_append h rest

/-! ## Lines -/

theorem dropReturn_of_getLast? {line : List Char} (h : line.getLast? ≠ some '\r') :
    dropReturn line = line := by
  unfold dropReturn
  split
  · next rest hrev =>
      refine absurd ?_ h
      rw [← List.head?_reverse, hrev, List.head?_cons]
  · rfl

theorem pieces_ended {ls : List (List Char)} (h : ∀ l ∈ ls, '\n' ∉ l) :
    pieces (· == '\n') (ls.flatMap (· ++ ['\n'])) = ls ++ [[]] := by
  induction ls with
  | nil => rfl
  | cons l ls ih =>
      obtain ⟨hl, hls⟩ := List.forall_mem_cons.mp h
      have hnone : ∀ c ∈ l, (c == '\n') = false := fun c hc =>
        beq_eq_false_iff_ne.mpr fun heq => hl (heq ▸ hc)
      rw [List.flatMap_cons, List.append_assoc, List.singleton_append,
        pieces_append hnone (beq_self_eq_true _), ih hls]
      rfl

/-- **Lines that each end with a line feed are read back.** -/
theorem linesOf_ended {ls : List (List Char)} (h : ∀ l ∈ ls, '\n' ∉ l)
    (hreturn : ∀ l ∈ ls, l.getLast? ≠ some '\r') : linesOf (ls.flatMap (· ++ ['\n'])) = ls := by
  have hsame : ls.reverse.map dropReturn = ls.reverse := by
    refine (List.map_congr_left fun l hl => ?_).trans (List.map_id _)
    exact dropReturn_of_getLast? (hreturn l (List.mem_reverse.mp hl))
  rw [linesOf, pieces_ended h, List.reverse_concat]
  simp only [hsame, List.reverse_reverse, List.isEmpty_nil, if_true]

/-! ## Trimming -/

theorem dropWhile_eq_self {p : α → Bool} {xs : List α} (h : ∀ x, xs.head? = some x → p x = false) :
    xs.dropWhile p = xs := by
  cases xs with
  | nil => rfl
  | cons x xs => rw [List.dropWhile_cons_of_neg (by simp [h x rfl])]

theorem dropEndWhile_eq_self {p : α → Bool} {xs : List α}
    (h : ∀ x, xs.getLast? = some x → p x = false) : dropEndWhile p xs = xs := by
  have hrev : xs.reverse.dropWhile p = xs.reverse :=
    dropWhile_eq_self fun x hx => h x (by rwa [List.head?_reverse] at hx)
  rw [dropEndWhile, hrev, List.reverse_reverse]

/-- What is dropped from the end of a list satisfies the test. -/
theorem dropEndWhile_append (p : α → Bool) (xs : List α) :
    ∃ dropped, xs = dropEndWhile p xs ++ dropped ∧ ∀ x ∈ dropped, p x = true := by
  refine ⟨(xs.reverse.takeWhile p).reverse, ?_, fun x hx => ?_⟩
  · have hsplit := congrArg List.reverse (List.takeWhile_append_dropWhile (p := p) (l := xs.reverse))
    rw [List.reverse_append, List.reverse_reverse] at hsplit
    exact hsplit.symm
  · exact List.all_eq_true.mp List.all_takeWhile x (List.mem_reverse.mp hx)

/-- What is left at the end of a list does not satisfy the test. -/
theorem getLast?_dropEndWhile {p : α → Bool} {xs : List α} {x : α}
    (h : (dropEndWhile p xs).getLast? = some x) : p x = false := by
  rw [dropEndWhile, List.getLast?_reverse] at h
  have hhead := List.head?_dropWhile_not p xs.reverse
  rw [h] at hhead
  exact hhead

theorem getLast?_trimmed {cs : List Char} {c : Char} (h : (trimmed cs).getLast? = some c) :
    isBlank c = false :=
  getLast?_dropEndWhile h

/-- Trimming leaves alone what has no blank at either end. -/
theorem trimmed_eq_self {cs : List Char} (hfirst : ∀ c, cs.head? = some c → isBlank c = false)
    (hlast : ∀ c, cs.getLast? = some c → isBlank c = false) : trimmed cs = cs := by
  rw [trimmed, dropWhile_eq_self hfirst, dropEndWhile_eq_self hlast]

theorem trimmed_of_forall {cs : List Char} (h : ∀ c ∈ cs, isBlank c = false) : trimmed cs = cs :=
  trimmed_eq_self (fun c hc => h c (List.mem_of_head? hc)) (fun c hc => h c (List.mem_of_getLast? hc))

theorem dropEndWhile_concat {p : α → Bool} {x : α} (hx : p x = true) (xs : List α) :
    dropEndWhile p (xs ++ [x]) = dropEndWhile p xs := by
  rw [dropEndWhile, dropEndWhile, List.reverse_concat, List.dropWhile_cons_of_pos hx]

/-- A blank at the end is dropped. -/
theorem trimmed_concat {c : Char} (hc : isBlank c = true) (cs : List Char) :
    trimmed (cs ++ [c]) = trimmed cs := by
  rw [trimmed, List.dropWhile_append]
  split
  · next hall =>
      rw [trimmed, List.isEmpty_iff.mp hall, List.dropWhile_cons_of_pos hc]
      rfl
  · exact dropEndWhile_concat hc _

theorem trimmed_append_right {gap : List Char} (h : ∀ c ∈ gap, isBlank c = true) (cs : List Char) :
    trimmed (cs ++ gap) = trimmed cs := by
  induction gap generalizing cs with
  | nil => rw [List.append_nil]
  | cons c gap ih =>
      obtain ⟨hc, hgap⟩ := List.forall_mem_cons.mp h
      rw [← List.singleton_append, ← List.append_assoc, ih hgap, trimmed_concat hc]

/-- Blanks around a text are dropped. -/
theorem trimmed_among_blanks {left right : List Char} (hleft : ∀ c ∈ left, isBlank c = true)
    (hright : ∀ c ∈ right, isBlank c = true) (cs : List Char) :
    trimmed (left ++ cs ++ right) = trimmed cs := by
  rw [trimmed_append_right hright, trimmed, trimmed, List.dropWhile_append_of_pos hleft]

/-- Nothing is dropped up to an element that does not satisfy the test. -/
theorem dropEndWhile_append_of_neg {p : α → Bool} {x : α} (hx : p x = false) (xs rest : List α) :
    dropEndWhile p (xs ++ x :: rest) = xs ++ x :: dropEndWhile p rest := by
  have hfront : (x :: xs.reverse).dropWhile p = x :: xs.reverse :=
    List.dropWhile_cons_of_neg (by simp [hx])
  have hrev : (xs ++ x :: rest).reverse = rest.reverse ++ x :: xs.reverse := by simp
  rw [dropEndWhile, dropEndWhile, hrev, List.dropWhile_append]
  split
  · next hall => simp [List.isEmpty_iff.mp hall, hfront]
  · simp

theorem dropWhile_front {p : α → Bool} {front xs : List α} (h : front <+: xs) :
    front.dropWhile p <+: xs.dropWhile p := by
  obtain ⟨rest, rfl⟩ := h
  rw [List.dropWhile_append]
  split
  · next hall =>
      rw [List.isEmpty_iff.mp hall]
      exact List.nil_prefix
  · exact List.prefix_append _ _

/-- What a trimmed text starts with, it starts with when more follows, unless that ends with a
blank. -/
theorem start_trimmed {start front cs : List Char} {c : Char} (hc : isBlank c = false)
    (hfront : front <+: cs) (h : start ++ [c] <+: trimmed front) : start ++ [c] <+: trimmed cs := by
  obtain ⟨dropped, hsplit, -⟩ := dropEndWhile_append isBlank (front.dropWhile isBlank)
  have hkept : start ++ [c] <+: front.dropWhile isBlank := by
    rw [hsplit]
    exact h.trans (List.prefix_append _ _)
  obtain ⟨rest, hrest⟩ := hkept.trans (dropWhile_front hfront)
  rw [trimmed, ← hrest, List.append_assoc, List.singleton_append, dropEndWhile_append_of_neg hc]
  exact ⟨dropEndWhile isBlank rest, by simp⟩

/-! ## What follows a start -/

theorem after?_eq_some_iff {start cs rest : List Char} :
    after? start cs = some rest ↔ cs = start ++ rest := by
  induction start generalizing cs with
  | nil => simp [after?, eq_comm]
  | cons s start ih =>
      cases cs with
      | nil => simp [after?]
      | cons c cs =>
          rw [after?]
          split
          · next heq => simp [ih, heq]
          · next hne => simp [Ne.symm hne]

theorem after?_eq_none_iff {start cs : List Char} : after? start cs = none ↔ ¬start <+: cs := by
  simp only [Option.eq_none_iff_forall_ne_some, ne_eq, after?_eq_some_iff]
  exact ⟨fun h ⟨rest, hrest⟩ => h rest hrest.symm, fun h rest hrest => h ⟨rest, hrest.symm⟩⟩

end OverlayVpn.Text
