import OverlayVpn.Proofs.Text.Blank
import OverlayVpn.Toml.Printer
import OverlayVpn.Toml.Reader

set_option autoImplicit false

/-! # Written strings are read back

A text is written in one of four notations, and whichever is chosen it is read back
(`stringValue_stringText`). Between double quotes each character is spelled by itself or by an
escape (`Spells`). In the notations over several lines, quotes that stand in a row are read together:
`LongBody` describes what is written after some of them. -/

namespace OverlayVpn.Toml

open Text

/-! ## Escapes -/

/-- A spelling of a character between double quotes: itself, or an escape that stands for it. -/
inductive Spells (c : Char) : List Char → Prop
  | plain (hplain : isPlain c = true) (hquote : c ≠ '"') (hslash : c ≠ '\\') : Spells c [c]
  | escape {e : Char} {code : List Char} (he : ∀ rest, newLine? (skipSpace (e :: rest)) = none)
      (hcode : ∀ rest, escaped (e :: code ++ rest) = some (c, rest)) : Spells c ('\\' :: e :: code)

/-- A character that needs no escape may stand in a string on one line, unless it is a line feed. -/
theorem isPlain_of_not_isControl {c : Char} (h : isControl c = false) (hfeed : c ≠ '\n') :
    isPlain c = true := by
  by_cases htab : c = '\t'
  · rw [htab]
    rfl
  · simp only [isControl, Bool.or_eq_false_iff, Bool.and_eq_false_iff, decide_eq_false_iff_not,
      bne_eq_false_iff_eq, beq_eq_false_iff_ne, htab, hfeed, or_false] at h
    simp only [isPlain, Bool.or_eq_true, Bool.and_eq_true, decide_eq_true_eq, bne_iff_ne]
    exact Or.inr ⟨by omega, h.2⟩

/-- Four digits are read whatever follows. -/
theorem charByNumber_append (a b c d : Char) (rest : List Char) :
    charByNumber 4 (a :: b :: c :: d :: rest) =
      (charByNumber 4 [a, b, c, d]).map fun found => (found.1, rest) := by
  unfold charByNumber
  simp only [List.take_succ_cons, List.take_zero, List.length_cons, List.length_nil, ne_eq,
    not_true_eq_false, if_false, Option.bind_eq_bind, List.drop_succ_cons, List.drop_zero]
  rw [Option.map_bind]
  congr 1
  funext n
  simp only [Function.comp_apply]
  split <;> rfl

/-- The digits of a control character stand for it. -/
theorem charByNumber_control {c : Char} (h : c.toNat < 128) (rest : List Char) :
    charByNumber 4 ((numberEscape c).drop 2 ++ rest) = some (c, rest) := by
  have hall : ∀ n < 128, charByNumber 4 ((numberEscape (Char.ofNat n)).drop 2) =
      some (Char.ofNat n, []) := by decide
  have hc := hall c.toNat h
  rw [Char.ofNat_toNat] at hc
  show charByNumber 4 (_ :: _ :: _ :: _ :: rest) = some (c, rest)
  rw [charByNumber_append]
  exact congrArg (Option.map _) hc

theorem spells_numberEscape {c : Char} (h : isControl c = true) : Spells c (numberEscape c) := by
  have hlow : c.toNat < 128 := by
    simp only [isControl, Bool.or_eq_true, Bool.and_eq_true, decide_eq_true_eq, beq_iff_eq] at h
    omega
  exact .escape (fun _ => rfl) fun rest => charByNumber_control hlow rest

/-- What is written for a character, other than a double quote or a line feed, between double
quotes. -/
theorem spells_escapeChar {c : Char} (hquote : c ≠ '"') (hfeed : c ≠ '\n') :
    Spells c (escapeChar c) := by
  unfold escapeChar
  split
  · next h => rw [h]; exact .escape (fun _ => rfl) fun _ => rfl
  split
  · next h => rw [h]; exact .escape (fun _ => rfl) fun _ => rfl
  split
  · next h => rw [h]; exact .escape (fun _ => rfl) fun _ => rfl
  split
  · next h => rw [h]; exact .escape (fun _ => rfl) fun _ => rfl
  split
  · next h => rw [h]; exact .escape (fun _ => rfl) fun _ => rfl
  split
  · next h => exact spells_numberEscape h
  · next hslash hcontrol =>
      exact .plain (isPlain_of_not_isControl (Bool.not_eq_true _ ▸ hcontrol) hfeed) hquote hslash

/-- What is written for a character on one line between double quotes. -/
def lineEscape (c : Char) : List Char :=
  if c = '\n' then ['\\', 'n'] else if c = '"' then ['\\', '"'] else escapeChar c

theorem escapeLine_eq (cs : List Char) : escapeLine cs = cs.flatMap lineEscape := rfl

theorem spells_lineEscape (c : Char) : Spells c (lineEscape c) := by
  unfold lineEscape
  split
  · next h => rw [h]; exact .escape (fun _ => rfl) fun _ => rfl
  split
  · next h => rw [h]; exact .escape (fun _ => rfl) fun _ => rfl
  · next hfeed hquote => exact spells_escapeChar hquote hfeed

theorem Spells.exists_cons {c : Char} {spelled : List Char} (h : Spells c spelled) :
    ∃ d tail, spelled = d :: tail := by
  cases h with
  | plain => exact ⟨_, _, rfl⟩
  | escape => exact ⟨_, _, rfl⟩

/-- No spelling starts with a double quote or a line end. -/
theorem Spells.head {c d : Char} {spelled : List Char} (h : Spells c spelled)
    (hd : spelled.head? = some d) : d ≠ '"' ∧ d ≠ '\n' ∧ d ≠ '\r' := by
  cases h with
  | plain hplain hquote hslash =>
      obtain rfl := Option.some.inj hd
      refine ⟨hquote, ?_, ?_⟩ <;> rintro rfl <;> exact absurd hplain (by decide)
  | escape he hcode =>
      obtain rfl := Option.some.inj hd
      decide

/-! ## Strings on one line -/

/-- A spelling is read as its character. -/
theorem basicString_spells {c : Char} {spelled : List Char} (h : Spells c spelled) (steps : Nat)
    (more : List Char) :
    basicString (steps + 1) (spelled ++ more) =
      (basicString steps more).map fun (cs, rest) => (c :: cs, rest) := by
  cases h with
  | plain hplain hquote hslash =>
      rw [List.singleton_append, basicString]
      · rw [if_pos hplain]
      · exact hquote
      · exact hslash
  | @escape e code he hcode =>
      rw [List.cons_append, basicString, hcode more, Option.bind_eq_bind, Option.bind_some]
      dsimp only
      cases basicString steps more <;> rfl

theorem basicString_escapeLine (cs rest : List Char) {steps : Nat} (h : cs.length < steps) :
    basicString steps (escapeLine cs ++ '"' :: rest) = some (cs, rest) := by
  rw [escapeLine_eq]
  obtain ⟨more, rfl⟩ := Nat.exists_eq_add_of_lt h
  clear h
  induction cs with
  | nil =>
      rw [List.length_nil, Nat.zero_add]
      rfl
  | cons c cs ih =>
      rw [List.flatMap_cons, List.append_assoc, List.length_cons, Nat.add_right_comm _ 1,
        basicString_spells (spells_lineEscape c), ih]
      rfl

theorem length_le_escapeLine (cs : List Char) : cs.length ≤ (escapeLine cs).length := by
  rw [escapeLine_eq]
  induction cs with
  | nil => exact Nat.le_refl 0
  | cons c cs ih =>
      obtain ⟨d, tail, htail⟩ := (spells_lineEscape c).exists_cons
      rw [List.flatMap_cons, List.length_append, htail, List.length_cons, List.length_cons]
      omega

/-! ## Literal strings -/

theorem literalString_append {cs : List Char} (h : ∀ c ∈ cs, isPlain c = true ∧ c ≠ '\'')
    (rest : List Char) : literalString (cs ++ '\'' :: rest) = some (cs, rest) := by
  have hinside : (cs ++ '\'' :: rest).takeWhile (fun c => isPlain c && c != '\'') = cs := by
    rw [List.takeWhile_append_of_pos fun c hc => by simp [h c hc]]
    simp
  simp only [literalString, hinside, List.drop_left]

/-! ## Strings over several lines -/

section LongString

variable {quote : Char} {escapes : Bool}

/-- Characters that are read as one character in a string over several lines. -/
def ReadsAs (quote : Char) (escapes : Bool) (c : Char) (spelled : List Char) : Prop :=
  (∃ d tail, spelled = d :: tail ∧ d ≠ quote) ∧
    ∀ steps more, longString quote escapes (steps + 1) (spelled ++ more) =
      (longString quote escapes steps more).map fun (cs, rest) => (c :: cs, rest)

/-- No line ends where a character stands that is plain. -/
theorem newLine?_of_isPlain {c : Char} (h : isPlain c = true) (more : List Char) :
    newLine? (c :: more) = none := by
  have hfeed : c ≠ '\n' := by rintro rfl; exact absurd h (by decide)
  have hreturn : c ≠ '\r' := by rintro rfl; exact absurd h (by decide)
  simp [newLine?, hfeed, hreturn]

theorem readsAs_spells {c : Char} {spelled : List Char} (h : Spells c spelled) :
    ReadsAs '"' true c spelled := by
  cases h with
  | plain hplain hquote hslash =>
      refine ⟨⟨c, [], rfl, hquote⟩, fun steps more => ?_⟩
      simp [longString, hquote, hslash, newLine?_of_isPlain hplain, hplain]
  | @escape e code he hcode =>
      refine ⟨⟨'\\', e :: code, rfl, by decide⟩, fun steps more => ?_⟩
      have hcode' := hcode more
      rw [List.cons_append] at hcode'
      have hstep : longString '"' true (steps + 1) ('\\' :: e :: code ++ more) =
          (escaped (e :: (code ++ more))).bind fun found =>
            (longString '"' true steps found.2).bind fun found' =>
              some (found.1 :: found'.1, found'.2) := by
        simp only [longString, List.cons_append, he]
        rfl
      rw [hstep, hcode', Option.bind_some]
      cases longString '"' true steps more <;> rfl

theorem readsAs_lineFeed (h : '\n' ≠ quote) : ReadsAs quote escapes '\n' ['\n'] := by
  refine ⟨⟨'\n', [], rfl, h⟩, fun steps more => ?_⟩
  simp [longString, h, newLine?]

theorem readsAs_literal {c : Char} (hplain : isPlain c = true) (hquote : c ≠ quote) :
    ReadsAs quote false c [c] := by
  refine ⟨⟨c, [], rfl, hquote⟩, fun steps more => ?_⟩
  simp [longString, hquote, newLine?_of_isPlain hplain, hplain]

/-! ### Quotes in a row -/

/-- The quotes in front are read together, as many as there are. -/
theorem spanQuotes_replicate (count : Nat) {rest : List Char} (h : rest.head? ≠ some quote) :
    spanQuotes quote (List.replicate count quote ++ rest) = (count, rest) := by
  have hall : ∀ c ∈ List.replicate count quote, (c == quote) = true := fun c hc =>
    beq_iff_eq.mpr (List.eq_of_mem_replicate hc)
  have hnone : ∀ c, rest.head? = some c → (c == quote) = false := fun c hc =>
    beq_eq_false_iff_ne.mpr fun heq => h (heq ▸ hc)
  have htake : rest.takeWhile (· == quote) = [] := by
    cases rest with
    | nil => rfl
    | cons c rest => exact List.takeWhile_cons_of_neg (by simp [hnone c rfl])
  rw [spanQuotes, List.takeWhile_append_of_pos hall, List.dropWhile_append_of_pos hall, htake,
    dropWhile_eq_self hnone, List.append_nil, List.length_replicate]

/-- One or two quotes belong to the text. -/
theorem longString_quotes {count : Nat} (hpos : 0 < count) (hcount : count ≤ 2) (steps : Nat)
    {rest : List Char} (h : rest.head? ≠ some quote) :
    longString quote escapes (steps + 1) (List.replicate count quote ++ rest) =
      (longString quote escapes steps rest).map fun (cs, rest) =>
        (List.replicate count quote ++ cs, rest) := by
  have hspan := spanQuotes_replicate count h
  obtain ⟨fewer, rfl⟩ := Nat.exists_eq_add_of_lt hpos
  rw [Nat.zero_add, List.replicate_succ, List.cons_append] at hspan ⊢
  rw [longString, if_pos (beq_self_eq_true quote), hspan]
  simp only [show ¬5 < fewer + 1 by omega, show ¬3 ≤ fewer + 1 by omega, if_false,
    List.replicate_succ]

/-- Three quotes end the text, together with up to two that stand in front of them. -/
theorem longString_close {run : Nat} (hrun : run ≤ 2) (steps : Nat) {rest : List Char}
    (h : rest.head? ≠ some quote) :
    longString quote escapes (steps + 1) (List.replicate (run + 3) quote ++ rest) =
      some (List.replicate run quote, rest) := by
  have hspan := spanQuotes_replicate (run + 3) h
  rw [List.replicate_succ, List.cons_append] at hspan ⊢
  rw [longString, if_pos (beq_self_eq_true quote), hspan]
  simp only [show ¬5 < run + 3 by omega, show 3 ≤ run + 3 by omega, if_false, if_true,
    Nat.add_sub_cancel]

/-- What is written of a text over several lines, after `run` quotes that stand in front. -/
inductive LongBody (quote : Char) (escapes : Bool) : Nat → List Char → List Char → Prop
  | done (run : Nat) : LongBody quote escapes run [] []
  | quote {run : Nat} {cs body : List Char} (hrun : run < 2)
      (hbody : LongBody quote escapes (run + 1) cs body) :
      LongBody quote escapes run (quote :: cs) (quote :: body)
  | other {run : Nat} {c : Char} {cs spelled body : List Char}
      (hspelled : ReadsAs quote escapes c spelled) (hbody : LongBody quote escapes 0 cs body) :
      LongBody quote escapes run (c :: cs) (spelled ++ body)

/-- **What is written over several lines is read back.** -/
theorem longString_body {run : Nat} {cs body : List Char} (hbody : LongBody quote escapes run cs body)
    (hrun : run ≤ 2) {rest : List Char} (hrest : rest.head? ≠ some quote) {steps : Nat}
    (hsteps : run + cs.length < steps) :
    longString quote escapes steps
        (List.replicate run quote ++ (body ++ (List.replicate 3 quote ++ rest))) =
      some (List.replicate run quote ++ cs, rest) := by
  induction hbody generalizing steps with
  | done run =>
      obtain ⟨more, rfl⟩ := Nat.exists_eq_add_of_lt hsteps
      rw [List.nil_append, ← List.append_assoc, List.replicate_append_replicate, List.append_nil]
      exact longString_close hrun _ hrest
  | @quote run cs body hfew hbody ih =>
      rw [List.length_cons] at hsteps
      have hread := ih (by omega) (show run + 1 + cs.length < steps by omega)
      rw [List.replicate_succ', List.append_assoc, List.append_assoc] at hread
      exact hread
  | @other run c cs spelled body hspelled hbody ih =>
      obtain ⟨⟨d, tail, rfl, hd⟩, hread⟩ := hspelled
      rw [List.length_cons] at hsteps
      have hone : ∀ {steps}, cs.length + 1 < steps → longString quote escapes steps
          (d :: tail ++ body ++ (List.replicate 3 quote ++ rest)) = some (c :: cs, rest) := by
        intro steps hmore
        obtain ⟨more, rfl⟩ := Nat.exists_eq_add_of_lt hmore
        have hrest := ih (Nat.zero_le 2) (show 0 + cs.length < cs.length + 1 + more by omega)
        rw [List.replicate_zero, List.nil_append, List.nil_append] at hrest
        rw [List.append_assoc, hread, hrest]
        rfl
      rcases Nat.eq_zero_or_pos run with rfl | hpos
      · exact hone (by omega)
      -- the quotes in front take a step of their own
      · obtain ⟨more, rfl⟩ := Nat.exists_eq_add_of_lt hsteps
        have hhead : (d :: tail ++ body ++ (List.replicate 3 quote ++ rest)).head? ≠ some quote :=
          fun heq => hd (Option.some.inj heq)
        rw [longString_quotes hpos hrun _ hhead, hone (by omega)]
        rfl

end LongString

/-! ## The notations over several lines -/

/-- Of quotes in a row that are written over several lines, every third is escaped. -/
theorem longBody_escapeLong {run : Nat} (hrun : run ≤ 2) (cs : List Char) :
    LongBody '"' true run cs (escapeLong run cs) := by
  induction cs generalizing run with
  | nil => exact .done run
  | cons c cs ih =>
      unfold escapeLong
      split
      · next hquote =>
          subst hquote
          split
          · have hescaped : ReadsAs '"' true '"' ['\\', '"'] :=
              readsAs_spells (.escape (fun _ => rfl) fun _ => rfl)
            exact .other hescaped (ih (Nat.zero_le 2))
          · exact .quote (by omega) (ih (by omega))
      · next hquote =>
          split
          · next hfeed =>
              subst hfeed
              exact .other (readsAs_lineFeed (by decide)) (ih (Nat.zero_le 2))
          · next hfeed =>
              exact .other (readsAs_spells (spells_escapeChar hquote hfeed)) (ih (Nat.zero_le 2))

theorem le_longestRun (c : Char) (run : Nat) (cs : List Char) : run ≤ longestRun c run cs := by
  induction cs generalizing run with
  | nil => exact Nat.le_refl run
  | cons d cs ih =>
      unfold longestRun
      split
      · exact Nat.le_trans (Nat.le_succ run) (ih (run + 1))
      · exact Nat.le_max_left _ _

/-- A text without control characters in which no three quotes stand in a row is written as it
is. -/
theorem longBody_literal {run : Nat} {cs : List Char} (hcontrols : ∀ c ∈ cs, isControl c = false)
    (hquotes : longestRun '\'' run cs ≤ 2) : LongBody '\'' false run cs cs := by
  induction cs generalizing run with
  | nil => exact .done run
  | cons c cs ih =>
      obtain ⟨hcontrol, hothers⟩ := List.forall_mem_cons.mp hcontrols
      unfold longestRun at hquotes
      split at hquotes
      · next hquote =>
          subst hquote
          have hrun := Nat.le_trans (le_longestRun '\'' (run + 1) cs) hquotes
          exact .quote (by omega) (ih hothers hquotes)
      · next hquote =>
          have hbody := ih hothers (Nat.le_trans (Nat.le_max_right _ _) hquotes)
          by_cases hfeed : c = '\n'
          · subst hfeed
            have hread : ReadsAs '\'' false '\n' ['\n'] := readsAs_lineFeed (by decide)
            exact .other hread hbody
          · have hread : ReadsAs '\'' false c [c] :=
              readsAs_literal (isPlain_of_not_isControl hcontrol hfeed) hquote
            exact .other hread hbody

theorem LongBody.length_le {quote : Char} {escapes : Bool} {run : Nat} {cs body : List Char}
    (h : LongBody quote escapes run cs body) : cs.length ≤ body.length := by
  induction h with
  | done run => exact Nat.le_refl 0
  | quote hrun hbody ih => exact Nat.succ_le_succ ih
  | other hspelled hbody ih =>
      obtain ⟨⟨d, tail, rfl, -⟩, -⟩ := hspelled
      rw [List.length_cons, List.length_append, List.length_cons]
      omega

/-- A text on lines of its own is read back between three quotes, whatever follows that is no
quote. -/
theorem longString_ownLines {quote : Char} {escapes : Bool} {cs body : List Char}
    (hbody : LongBody quote escapes 0 cs body) (hquote : quote ≠ '\n' ∧ quote ≠ '\r')
    (hhead : '\n' ∉ cs → ∀ d, body.head? = some d → d ≠ '\n' ∧ d ≠ '\r') {rest text : List Char}
    (hrest : rest.head? ≠ some quote)
    (htext : text = (if cs.contains '\n' then ['\n'] else []) ++ body ++
      (List.replicate 3 quote ++ rest)) :
    longString quote escapes (text.length + 1) (dropFirstLine text) = some (cs, rest) := by
  have hfirst : dropFirstLine text = body ++ (List.replicate 3 quote ++ rest) := by
    subst htext
    split
    · rfl
    · next hfeed =>
        have hnone : newLine? (body ++ (List.replicate 3 quote ++ rest)) = none := by
          cases body with
          | nil => simp [List.replicate_succ, newLine?, hquote]
          | cons d body =>
              have hd := hhead (by simpa using hfeed) d rfl
              simp [newLine?, hd]
        rw [List.nil_append, dropFirstLine, hnone]
        rfl
  have hsteps : 0 + cs.length < text.length + 1 := by
    have hlength := hbody.length_le
    rw [htext, List.length_append, List.length_append]
    omega
  rw [hfirst]
  exact longString_body hbody (Nat.zero_le 2) hrest hsteps

theorem escapeLong_head {cs : List Char} (hfeed : '\n' ∉ cs) {d : Char}
    (hd : (escapeLong 0 cs).head? = some d) : d ≠ '\n' ∧ d ≠ '\r' := by
  cases cs with
  | nil => cases hd
  | cons c cs =>
      have hc : c ≠ '\n' := fun heq => hfeed (heq ▸ List.mem_cons_self)
      unfold escapeLong at hd
      split at hd
      · obtain rfl := Option.some.inj hd
        decide
      · next hquote =>
          have hspells := spells_escapeChar hquote hc
          obtain ⟨e, tail, htail⟩ := hspells.exists_cons
          rw [htail, List.cons_append] at hd
          exact (hspells.head (htail ▸ hd)).2

/-! ## Whichever is chosen -/

section Chosen

variable {cs rest : List Char}

theorem not_mem_of_longestRun {c : Char} (h : longestRun c 0 cs = 0) : c ∉ cs := by
  induction cs with
  | nil => exact List.not_mem_nil
  | cons d cs ih =>
      unfold longestRun at h
      split at h
      · have hrun := le_longestRun c (0 + 1) cs
        omega
      · next hne =>
          rw [List.mem_cons, not_or]
          exact ⟨Ne.symm hne, ih (by omega)⟩

theorem of_choose_literal (h : (needs cs).choose = .literal) :
    (∀ c ∈ cs, isControl c = false) ∧ '\'' ∉ cs ∧ '\n' ∉ cs := by
  have hall : (needs cs).controls = false ∧ (needs cs).singleQuotes = 0 ∧
      (needs cs).lineFeed = false := by
    grind [Needs.choose]
  refine ⟨fun c hc => ?_, not_mem_of_longestRun hall.2.1, by simpa [needs] using hall.2.2⟩
  exact Bool.not_eq_true _ ▸ List.any_eq_false.mp hall.1 c hc

theorem of_choose_longLiteral (h : (needs cs).choose = .longLiteral) :
    (∀ c ∈ cs, isControl c = false) ∧ longestRun '\'' 0 cs ≤ 2 := by
  have hall : (needs cs).controls = false ∧ (needs cs).singleQuotes ≤ 2 := by
    grind [Needs.choose]
  exact ⟨fun c hc => Bool.not_eq_true _ ▸ List.any_eq_false.mp hall.1 c hc, hall.2⟩

/-- One quote opens a text on one line, unless two more follow. -/
theorem stringValue_double (h : ∀ more, cs ≠ '"' :: '"' :: more) :
    stringValue ('"' :: cs) =
      (basicString (cs.length + 1) cs).map fun (s, rest) => (String.ofList s, rest) := by
  unfold stringValue
  split <;> simp_all

theorem stringValue_single (h : ∀ more, cs ≠ '\'' :: '\'' :: more) :
    stringValue ('\'' :: cs) =
      (literalString cs).map fun (s, rest) => (String.ofList s, rest) := by
  unfold stringValue
  split <;> simp_all

theorem stringValue_basic (hrest : rest.head? ≠ some '"') :
    stringValue (Quoting.basic.chars cs ++ rest) = some (String.ofList cs, rest) := by
  have htext : Quoting.basic.chars cs ++ rest = '"' :: (escapeLine cs ++ '"' :: rest) := by
    simp [Quoting.chars]
  have hone : ∀ more, escapeLine cs ++ '"' :: rest ≠ '"' :: '"' :: more := by
    cases cs with
    | nil => exact fun more heq => hrest (by rw [(List.cons.inj heq).2]; rfl)
    | cons c cs =>
        have hspells := spells_lineEscape c
        obtain ⟨d, tail, htail⟩ := hspells.exists_cons
        rw [escapeLine_eq, List.flatMap_cons, htail]
        exact fun more heq => (hspells.head (by rw [htail]; rfl)).1 (List.cons.inj heq).1
  have hsteps : cs.length < (escapeLine cs ++ '"' :: rest).length + 1 := by
    have hlength := length_le_escapeLine cs
    rw [List.length_append]
    omega
  rw [htext, stringValue_double hone, basicString_escapeLine cs rest hsteps]
  rfl

theorem stringValue_literal (hchosen : (needs cs).choose = .literal)
    (hrest : rest.head? ≠ some '\'') :
    stringValue (Quoting.literal.chars cs ++ rest) = some (String.ofList cs, rest) := by
  obtain ⟨hcontrols, hquote, hfeed⟩ := of_choose_literal hchosen
  have htext : Quoting.literal.chars cs ++ rest = '\'' :: (cs ++ '\'' :: rest) := by
    simp [Quoting.chars]
  have hone : ∀ more, cs ++ '\'' :: rest ≠ '\'' :: '\'' :: more := by
    cases cs with
    | nil => exact fun more heq => hrest (by rw [(List.cons.inj heq).2]; rfl)
    | cons c cs => exact fun more heq => hquote ((List.cons.inj heq).1 ▸ List.mem_cons_self)
  have hplain : ∀ c ∈ cs, isPlain c = true ∧ c ≠ '\'' := fun c hc =>
    ⟨isPlain_of_not_isControl (hcontrols c hc) fun heq => hfeed (heq ▸ hc),
      fun heq => hquote (heq ▸ hc)⟩
  rw [htext, stringValue_single hone, literalString_append hplain]
  rfl

theorem stringValue_longBasic (hrest : rest.head? ≠ some '"') :
    stringValue (Quoting.longBasic.chars cs ++ rest) = some (String.ofList cs, rest) := by
  have hread := longString_ownLines (longBody_escapeLong (Nat.zero_le 2) cs) (by decide)
    (fun hfeed d => escapeLong_head hfeed) hrest rfl
  have htext : Quoting.longBasic.chars cs ++ rest = '"' :: '"' :: '"' ::
      ((if cs.contains '\n' then ['\n'] else []) ++ escapeLong 0 cs ++
        (List.replicate 3 '"' ++ rest)) := by
    simp [Quoting.chars, List.replicate]
  rw [htext, stringValue, hread]
  rfl

theorem stringValue_longLiteral (hchosen : (needs cs).choose = .longLiteral)
    (hrest : rest.head? ≠ some '\'') :
    stringValue (Quoting.longLiteral.chars cs ++ rest) = some (String.ofList cs, rest) := by
  obtain ⟨hcontrols, hquotes⟩ := of_choose_longLiteral hchosen
  have hhead : '\n' ∉ cs → ∀ d, cs.head? = some d → d ≠ '\n' ∧ d ≠ '\r' := by
    refine fun hfeed d hd => ⟨fun heq => hfeed (heq ▸ List.mem_of_head? hd), fun heq => ?_⟩
    exact absurd (hcontrols d (List.mem_of_head? hd)) (heq ▸ by decide)
  have hread := longString_ownLines (longBody_literal hcontrols hquotes) (by decide) hhead hrest rfl
  have htext : Quoting.longLiteral.chars cs ++ rest = '\'' :: '\'' :: '\'' ::
      ((if cs.contains '\n' then ['\n'] else []) ++ cs ++ (List.replicate 3 '\'' ++ rest)) := by
    simp [Quoting.chars, List.replicate]
  rw [htext, stringValue, hread]
  rfl

end Chosen

/-- **A text is read back from what is written for it**, whatever follows that is no quote. -/
theorem stringValue_stringText (s : String) {rest : List Char} (hdouble : rest.head? ≠ some '"')
    (hsingle : rest.head? ≠ some '\'') :
    stringValue ((stringText s).toList ++ rest) = some (s, rest) := by
  have hread : stringValue ((needs s.toList).choose.chars s.toList ++ rest) =
      some (String.ofList s.toList, rest) := by
    cases hchosen : (needs s.toList).choose with
    | basic => exact stringValue_basic hdouble
    | literal => exact stringValue_literal hchosen hsingle
    | longBasic => exact stringValue_longBasic hdouble
    | longLiteral => exact stringValue_longLiteral hchosen hsingle
  rw [stringText, String.toList_ofList, hread, String.ofList_toList]

end OverlayVpn.Toml
