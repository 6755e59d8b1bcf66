import OverlayVpn.Proofs.Text.Decimal
import OverlayVpn.Proofs.Toml.Strings

set_option autoImplicit false

/-! # Written values are read back

Values are texts, 64-bit integers, truth values and lists of these, nested at most so deep
(`Writable`). Written inside a document each is followed by a line feed, a comma or a closing
bracket, none of which could belong to it, and so it is read back (`value_valueText`). -/

namespace OverlayVpn.Toml

open Text

/-- What may follow a value: a line feed, a comma or a closing bracket. -/
def Closes (rest : List Char) : Prop :=
  ∃ c more, rest = c :: more ∧ (c = '\n' ∨ c = ',' ∨ c = ']')

theorem Closes.head?_ne {rest : List Char} (h : Closes rest) {d : Char}
    (hd : d ∉ ['\n', ',', ']']) : rest.head? ≠ some d := by
  obtain ⟨c, more, rfl, hc⟩ := h
  rintro heq
  obtain rfl := Option.some.inj heq
  rcases hc with rfl | rfl | rfl <;> simp at hd

/-! ## Digits -/

theorem isDecimal_eq (c : Char) : isDecimal c = c.isDigit := Decimal.isSome_digit? c

theorem isDecimal_of_mem_digits {n : Nat} {c : Char} (h : c ∈ Decimal.digits n) :
    isDecimal c = true :=
  (isDecimal_eq c).trans (Decimal.isDigit_of_mem_digits h)

/-- No digit follows a value. -/
theorem Closes.not_isDecimal {rest : List Char} (h : Closes rest) {c : Char}
    (hc : rest.head? = some c) : isDecimal c = false ∧ c ≠ '_' := by
  obtain ⟨d, more, rfl, hd⟩ := h
  obtain rfl := Option.some.inj hc
  rcases hd with rfl | rfl | rfl <;> decide

/-- A digit that no underscore follows is read on its own. -/
theorem groupedDigits_digit {isDigit : Char → Bool} {d : Char} (hd : isDigit d = true)
    {rest : List Char} (hrest : rest.head? ≠ some '_') (steps : Nat) :
    groupedDigits isDigit (steps + 1) (d :: rest) =
      match groupedDigits isDigit steps rest with
      | some (ds, rest) => some (d :: ds, rest)
      | none => if (rest.head?.map isDigit).getD false then none else some ([d], rest) := by
  simp only [groupedDigits, if_pos hd]
  split
  · exact absurd rfl hrest
  · cases groupedDigits isDigit steps rest <;> rfl

/-- Digits are read as long as digits stand there. -/
theorem groupedDigits_append {isDigit : Char → Bool} (hscore : isDigit '_' = false) {ds : List Char}
    (hne : ds ≠ []) (hds : ∀ c ∈ ds, isDigit c = true) {rest : List Char}
    (hrest : ∀ c, rest.head? = some c → isDigit c = false ∧ c ≠ '_') {steps : Nat}
    (hsteps : ds.length ≤ steps) : groupedDigits isDigit steps (ds ++ rest) = some (ds, rest) := by
  induction ds generalizing steps with
  | nil => exact absurd rfl hne
  | cons d ds ih =>
      obtain ⟨hd, hothers⟩ := List.forall_mem_cons.mp hds
      cases steps with
      | zero => simp at hsteps
      | succ steps =>
          rw [List.length_cons, Nat.succ_le_succ_iff] at hsteps
          cases ds with
          | nil =>
              have hnone : groupedDigits isDigit steps rest = none := by
                cases steps with
                | zero => rfl
                | succ steps =>
                    cases rest with
                    | nil => rfl
                    | cons c rest => simp [groupedDigits, (hrest c rfl).1]
              have hend : (rest.head?.map isDigit).getD false = false := by
                cases rest with
                | nil => rfl
                | cons c rest => exact (hrest c rfl).1
              rw [List.singleton_append, groupedDigits_digit hd fun heq => (hrest _ heq).2 rfl, hnone]
              simp only [hend, Bool.false_eq_true, if_false]
          | cons e ds =>
              have hread := ih (List.cons_ne_nil e ds) hothers hsteps
              have he : (e :: ds ++ rest).head? ≠ some '_' := by
                rintro heq
                obtain rfl := Option.some.inj heq
                simp [hscore] at hothers
              rw [List.cons_append, groupedDigits_digit hd he, hread]

/-- The digits of a number have its value. -/
theorem valueIn_digits (n : Nat) : valueIn 10 (Decimal.digits n) = n := by
  have hdigit : ∀ c : Char, c.isDigit = true → (digitIn 10 c).getD 0 = c.toNat - '0'.toNat := by
    intro c hc
    simp only [Char.isDigit, Bool.and_eq_true, decide_eq_true_eq] at hc
    have hrange : '0' ≤ c ∧ c ≤ '9' := hc
    have hlow : c.toNat - 48 < 10 := by
      have hhigh : c.toNat ≤ 57 := hc.2
      omega
    rw [digitIn, if_pos hrange]
    simp only [hlow, if_true, Option.getD_some]
    rfl
  have hall : ∀ (ds : List Char) (start : Nat), (∀ c ∈ ds, c.isDigit = true) →
      ds.foldl (fun n c => n * 10 + (digitIn 10 c).getD 0) start = Nat.ofDigitChars 10 ds start := by
    intro ds
    induction ds with
    | nil => exact fun start _ => rfl
    | cons c ds ih =>
        intro start hds
        obtain ⟨hc, hothers⟩ := List.forall_mem_cons.mp hds
        rw [List.foldl_cons, ih _ hothers, hdigit c hc, Nat.ofDigitChars_cons, Nat.mul_comm]
  rw [valueIn, hall _ _ fun c hc => Decimal.isDigit_of_mem_digits hc, Decimal.digits,
    Nat.ofDigitChars_ten_toDigits]

/-! ## Numbers -/

section Number

variable {rest : List Char}

/-- Only the number zero starts with a zero. -/
theorem digits_cases (n : Nat) :
    Decimal.digits n = ['0'] ∨ ∃ d ds, Decimal.digits n = d :: ds ∧ d ≠ '0' := by
  by_cases hone : Decimal.digits n = ['0']
  · exact Or.inl hone
  · obtain ⟨d, ds, hn⟩ := List.exists_cons_of_ne_nil (Decimal.digits_ne_nil n)
    refine Or.inr ⟨d, ds, hn, ?_⟩
    rintro rfl
    exact Decimal.digits?_front_ne_zero ⟨ds, hn.symm⟩ (Ne.symm hone) (by decide)

theorem wholeDigits_digits (n : Nat) (hrest : Closes rest) :
    wholeDigits (Decimal.digits n ++ rest) = some (Decimal.digits n, rest) := by
  have hread : decimals (Decimal.digits n ++ rest) = some (Decimal.digits n, rest) := by
    refine groupedDigits_append rfl (Decimal.digits_ne_nil n) (fun _ => isDecimal_of_mem_digits)
      (fun _ => hrest.not_isDecimal) ?_
    rw [List.length_append]
    omega
  rcases digits_cases n with hn | ⟨d, ds, hn, hd⟩
  · rw [hn]
    rfl
  · rw [hn] at hread ⊢
    rw [← hread, List.cons_append, wholeDigits]
    rintro more heq
    exact hd (List.cons.inj heq).1

/-- Of digits, and what follows a value, no more than digits are taken as a number. -/
theorem fixed_digits {ds : List Char} (hds : ∀ c ∈ ds, isDecimal c = true) (hrest : Closes rest)
    {count n : Nat} {more : List Char} (h : fixed count (ds ++ rest) = some (n, more)) :
    ∃ others, (∀ c ∈ others, isDecimal c = true) ∧ more = others ++ rest := by
  simp only [fixed] at h
  split at h
  · next hall =>
      obtain ⟨-, rfl⟩ := Prod.mk.inj (Option.some.inj h)
      have hcount : count - ds.length = 0 := by
        obtain ⟨c, tail, rfl, -⟩ := id hrest
        cases hmore : count - ds.length with
        | zero => rfl
        | succ k =>
            have hc := List.all_eq_true.mp hall.2 c (by rw [List.take_append, hmore]; simp)
            rw [(hrest.not_isDecimal rfl).1] at hc
            cases hc
      refine ⟨ds.drop count, fun c hc => hds c (List.mem_of_mem_drop hc), ?_⟩
      rw [List.drop_append, hcount, List.drop_zero]
  · cases h

theorem past_digits {ds : List Char} (hds : ∀ c ∈ ds, isDecimal c = true) {c : Char}
    (hc : isDecimal c = false) (hrest : rest.head? ≠ some c) : past c (ds ++ rest) = none := by
  cases ds with
  | nil =>
      cases rest with
      | nil => rfl
      | cons d rest => exact if_neg fun (heq : d = c) => hrest (heq ▸ rfl)
  | cons d ds =>
      refine if_neg fun (heq : d = c) => ?_
      rw [← heq, hds d List.mem_cons_self] at hc
      cases hc

/-- An integer is no date and no time of day. -/
theorem dateOrTime_digits {ds : List Char} (hds : ∀ c ∈ ds, isDecimal c = true)
    (hrest : Closes rest) : dateOrTime (ds ++ rest) = none := by
  have hdate : date (ds ++ rest) = none := by
    rw [date]
    cases hfixed : fixed 4 (ds ++ rest) with
    | none => rfl
    | some found =>
        obtain ⟨others, hothers, hmore⟩ := fixed_digits hds hrest hfixed
        have hpast : past '-' found.2 = none :=
          hmore ▸ past_digits hothers rfl (hrest.head?_ne (by decide))
        simp [hpast]
  have hclock : hourAndMinute (ds ++ rest) = none := by
    rw [hourAndMinute]
    cases hfixed : fixed 2 (ds ++ rest) with
    | none => rfl
    | some found =>
        obtain ⟨others, hothers, hmore⟩ := fixed_digits hds hrest hfixed
        have hpast : past ':' found.2 = none :=
          hmore ▸ past_digits hothers rfl (hrest.head?_ne (by decide))
        simp [hpast]
  rw [dateOrTime, hdate, time, hclock]
  rfl

theorem fraction_none (hrest : Closes rest) : fraction rest = none := by
  obtain ⟨c, more, rfl, hc⟩ := hrest
  rcases hc with rfl | rfl | rfl <;> rfl

theorem exponentPart_none (hrest : Closes rest) : exponentPart rest = none := by
  obtain ⟨c, more, rfl, hc⟩ := hrest
  rcases hc with rfl | rfl | rfl <;> rfl

theorem fixed_minus (count : Nat) (cs : List Char) : fixed (count + 1) ('-' :: cs) = none := by
  have hminus : isDecimal '-' = false := rfl
  simp [fixed, hminus]

theorem dateOrTime_minus (cs : List Char) : dateOrTime ('-' :: cs) = none := by
  simp [dateOrTime, date, time, hourAndMinute, fixed_minus]

theorem sign_digits (n : Nat) (cs : List Char) :
    sign (Decimal.digits n ++ cs) = (false, Decimal.digits n ++ cs) := by
  obtain ⟨d, ds, hn⟩ := List.exists_cons_of_ne_nil (Decimal.digits_ne_nil n)
  have hd : isDecimal d = true := isDecimal_of_mem_digits (hn ▸ List.mem_cons_self)
  rw [hn, List.cons_append, sign]
  · rintro more heq
    rw [(List.cons.inj heq).1] at hd
    cases hd
  · rintro more heq
    rw [(List.cons.inj heq).1] at hd
    cases hd

section Signed

variable {cs : List Char} {negative : Bool} {n : Nat}

/-- An integer has neither fraction nor exponent. -/
theorem decimalFloat_integer (hsign : sign cs = (negative, Decimal.digits n ++ rest))
    (hrest : Closes rest) : decimalFloat cs = none := by
  simp [decimalFloat, hsign, wholeDigits_digits n hrest, fraction_none hrest,
    exponentPart_none hrest]

theorem namedFloat_integer (hsign : sign cs = (negative, Decimal.digits n ++ rest)) :
    namedFloat cs = none := by
  obtain ⟨d, ds, hn⟩ := List.exists_cons_of_ne_nil (Decimal.digits_ne_nil n)
  have hd : isDecimal d = true := isDecimal_of_mem_digits (hn ▸ List.mem_cons_self)
  rw [namedFloat, hsign, hn, List.cons_append]
  split
  · next heq => rw [(List.cons.inj heq).1] at hd; cases hd
  · next heq => rw [(List.cons.inj heq).1] at hd; cases hd
  · rfl

theorem decimalInteger_integer (hsign : sign cs = (negative, Decimal.digits n ++ rest))
    (hrest : Closes rest) :
    decimalInteger cs =
      if negative then
        (if n ≤ Decimal.signedBound then some (.integer (-(n : Int)), rest) else none)
      else if n < Decimal.signedBound then some (.integer n, rest) else none := by
  simp [decimalInteger, hsign, wholeDigits_digits n hrest, valueIn_digits]

end Signed

/-- No base is announced in front of decimal digits. -/
theorem number_eq {cs : List Char}
    (hbase : ∀ more, cs ≠ '0' :: 'x' :: more ∧ cs ≠ '0' :: 'o' :: more ∧ cs ≠ '0' :: 'b' :: more)
    (hdate : dateOrTime cs = none) (hfloat : decimalFloat cs = none) (hnamed : namedFloat cs = none) :
    number cs = decimalInteger cs := by
  rw [number, hdate, hfloat, hnamed]
  · rfl
  · exact fun more => (hbase more).1
  · exact fun more => (hbase more).2.1
  · exact fun more => (hbase more).2.2

/-- Decimal digits announce no base. -/
theorem digits_ne_base (n : Nat) {c : Char} (hc : c ∉ ['\n', ',', ']'])
    (hrest : Closes rest) (more : List Char) : Decimal.digits n ++ rest ≠ '0' :: c :: more := by
  intro heq
  rcases digits_cases n with hzero | ⟨d, ds, hn, hd⟩
  · rw [hzero, List.singleton_append] at heq
    exact hrest.head?_ne hc (by rw [(List.cons.inj heq).2]; rfl)
  · rw [hn, List.cons_append] at heq
    exact hd (List.cons.inj heq).1

/-- **An integer is read back.** -/
theorem number_renderInt {n : Int} (hlow : -(Decimal.signedBound : Int) ≤ n)
    (hhigh : n < Decimal.signedBound) (hrest : Closes rest) :
    number ((Decimal.renderInt n).toList ++ rest) = some (.integer n, rest) := by
  rw [Decimal.toList_renderInt]
  split
  · next hneg =>
      have hsign : sign ('-' :: (Decimal.digits n.natAbs ++ rest)) =
          (true, Decimal.digits n.natAbs ++ rest) := rfl
      rw [List.cons_append, number_eq (by simp) (dateOrTime_minus _)
        (decimalFloat_integer hsign hrest) (namedFloat_integer hsign),
        decimalInteger_integer hsign hrest, if_pos rfl, if_pos (by omega)]
      congr 3
      omega
  · next hneg =>
      have hsign := sign_digits n.natAbs rest
      have hbase := fun more =>
        And.intro (digits_ne_base n.natAbs (c := 'x') (by decide) hrest more)
          (And.intro (digits_ne_base n.natAbs (c := 'o') (by decide) hrest more)
            (digits_ne_base n.natAbs (c := 'b') (by decide) hrest more))
      rw [number_eq hbase (dateOrTime_digits (fun _ => isDecimal_of_mem_digits) hrest)
        (decimalFloat_integer hsign hrest) (namedFloat_integer hsign),
        decimalInteger_integer hsign hrest, if_neg Bool.false_ne_true, if_pos (by omega)]
      congr 3
      omega

end Number

/-! ## Values -/

/-- The values that can be written inside a document: texts, integers of 64 bits with their sign,
truth values, and lists of these, nested at most so deep. -/
inductive Writable : Nat → Toml → Prop
  | string (depth : Nat) (s : String) : Writable depth (.string s)
  | integer (depth : Nat) {n : Int} (hlow : -(Decimal.signedBound : Int) ≤ n)
      (hhigh : n < Decimal.signedBound) : Writable depth (.integer n)
  | boolean (depth : Nat) (b : Bool) : Writable depth (.boolean b)
  | array {depth : Nat} {items : List Toml} (hitems : ∀ v ∈ items, Writable depth v) :
      Writable (depth + 1) (.array items)

/-- A text starts with a quote. -/
theorem stringText_head (s : String) :
    ∃ more, (stringText s).toList = '"' :: more ∨ (stringText s).toList = '\'' :: more := by
  rw [stringText, String.toList_ofList]
  cases (needs s.toList).choose with
  | basic | longBasic => exact ⟨_, Or.inl rfl⟩
  | literal | longLiteral => exact ⟨_, Or.inr rfl⟩

/-- An integer starts with its sign or a digit. -/
theorem renderInt_head (n : Int) :
    ∃ c more, (Decimal.renderInt n).toList = c :: more ∧ (c = '-' ∨ c.isDigit = true) := by
  rw [Decimal.toList_renderInt]
  split
  · exact ⟨'-', _, rfl, Or.inl rfl⟩
  · obtain ⟨d, ds, hn⟩ := List.exists_cons_of_ne_nil (Decimal.digits_ne_nil n.natAbs)
    exact ⟨d, ds, hn, Or.inr (Decimal.isDigit_of_mem_digits (hn ▸ List.mem_cons_self))⟩

/-- What a written value starts with: no blank, no comment, no line end and no closing bracket. -/
theorem Writable.head {depth : Nat} {v : Toml} (h : Writable depth v) :
    ∃ c more, (valueText v).toList = c :: more ∧ c ∉ [' ', '\t', '#', '\n', '\r'] ∧ c ≠ ']' := by
  cases h with
  | string depth s =>
      rw [valueText]
      obtain ⟨more, htext | htext⟩ := stringText_head s
      · exact ⟨'"', more, htext, by decide⟩
      · exact ⟨'\'', more, htext, by decide⟩
  | @integer depth n hlow hhigh =>
      rw [valueText]
      obtain ⟨c, more, htext, hc⟩ := renderInt_head n
      refine ⟨c, more, htext, fun hmem => ?_, ?_⟩
      · simp only [List.mem_cons, List.not_mem_nil, or_false] at hmem
        rcases hmem with rfl | rfl | rfl | rfl | rfl <;> simp at hc
      · rintro rfl
        simp at hc
  | boolean depth b =>
      cases b with
      | true => exact ⟨'t', _, rfl, by decide⟩
      | false => exact ⟨'f', _, rfl, by decide⟩
  | @array depth items hitems =>
      cases items with
      | nil => exact ⟨'[', _, by simp [valueText]; rfl, by decide⟩
      | cons v vs =>
          cases vs with
          | nil => exact ⟨'[', _, by simp [valueText]; rfl, by decide⟩
          | cons w vs => exact ⟨'[', _, by simp [valueText]; rfl, by decide⟩

theorem value_string (depth : Nat) (s : String) {rest : List Char} (hrest : Closes rest) :
    value depth ((stringText s).toList ++ rest) = some (.string s, rest) := by
  have hread := stringValue_stringText s (hrest.head?_ne (d := '"') (by decide))
    (hrest.head?_ne (d := '\'') (by decide))
  obtain ⟨more, htext | htext⟩ := stringText_head s
  all_goals
    rw [htext, List.cons_append] at hread ⊢
    rw [value, hread]
    rfl

theorem value_integer (depth : Nat) {n : Int} (hlow : -(Decimal.signedBound : Int) ≤ n)
    (hhigh : n < Decimal.signedBound) {rest : List Char} (hrest : Closes rest) :
    value depth ((Decimal.renderInt n).toList ++ rest) = some (.integer n, rest) := by
  obtain ⟨c, more, htext, hc⟩ := renderInt_head n
  rw [← number_renderInt hlow hhigh hrest, htext, List.cons_append, value]
  all_goals
    rintro _ heq
    obtain rfl := (List.cons.inj heq).1
    simp at hc

theorem value_array (depth : Nat) (cs : List Char) :
    value (depth + 1) ('[' :: cs) =
      (items (value depth) (cs.length + 1) cs).map fun (vs, rest) => (.array vs, rest) := by
  rw [value]

/-! ## Lists -/

/-- Nothing is skipped where something stands. -/
theorem skipLines_of_head {c : Char} (hc : c ∉ [' ', '\t', '#', '\n', '\r']) (steps : Nat)
    (more : List Char) : skipLines steps (c :: more) = some (c :: more) := by
  simp only [List.mem_cons, List.not_mem_nil, or_false, not_or] at hc
  cases steps with
  | zero => rfl
  | succ steps => simp [skipLines, skipSpace, newLine?, hc]

/-- A line end and the blanks after it are skipped. -/
theorem skipLines_line {c : Char} (hc : c ∉ [' ', '\t', '#', '\n', '\r']) (steps : Nat)
    (more : List Char) :
    skipLines (steps + 2) ('\n' :: ' ' :: ' ' :: ' ' :: ' ' :: c :: more) = some (c :: more) := by
  simp only [List.mem_cons, List.not_mem_nil, or_false, not_or] at hc
  simp [skipLines, skipSpace, newLine?, hc]

section Items

variable {read : Reader Toml}

/-- That a reader reads a value back from its text. -/
def ReadsBack (read : Reader Toml) (v : Toml) : Prop :=
  (∃ c more, (valueText v).toList = c :: more ∧ c ∉ [' ', '\t', '#', '\n', '\r'] ∧ c ≠ ']') ∧
    ∀ rest, Closes rest → read ((valueText v).toList ++ rest) = some (v, rest)

theorem ReadsBack.ne_close {v : Toml} (hv : ReadsBack read v) (rest more : List Char) :
    (valueText v).toList ++ rest ≠ ']' :: more := by
  obtain ⟨⟨c, tail, htext, hc⟩, -⟩ := hv
  rw [htext, List.cons_append]
  exact fun heq => hc.2 (List.cons.inj heq).1

/-- An item is read, and then what follows its comma. -/
theorem items_comma {v : Toml} (hv : ReadsBack read v) {cs rest : List Char}
    (hcs : skipLines (cs.length + 1) cs = some ((valueText v).toList ++ ',' :: rest)) (steps : Nat) :
    items read (steps + 1) cs = (items read steps rest).map fun (vs, rest) => (v :: vs, rest) := by
  have hread := hv.2 (',' :: rest) ⟨',', rest, rfl, by simp⟩
  have hkeep := skipLines_of_head (c := ',') (by decide) ((',' :: rest).length + 1) rest
  rw [items, hcs]
  simp only [Option.bind_eq_bind, Option.bind_some]
  split
  · next heq => exact absurd heq (hv.ne_close _ _)
  · simp only [hread, hkeep, Option.bind_some]
    cases items read steps rest <;> rfl

/-- The last item may stand without a comma. -/
theorem items_last {v : Toml} (hv : ReadsBack read v) {cs rest : List Char}
    (hcs : skipLines (cs.length + 1) cs = some ((valueText v).toList ++ ']' :: rest)) (steps : Nat) :
    items read (steps + 1) cs = some ([v], rest) := by
  have hread := hv.2 (']' :: rest) ⟨']', rest, rfl, by simp⟩
  have hkeep := skipLines_of_head (c := ']') (by decide) ((']' :: rest).length + 1) rest
  rw [items, hcs]
  simp only [Option.bind_eq_bind, Option.bind_some]
  split
  · next heq => exact absurd heq (hv.ne_close _ _)
  · simp only [hread, hkeep, Option.bind_some]
    rfl

theorem length_le_itemLines (vs : List Toml) : vs.length ≤ (itemLines vs).toList.length := by
  induction vs with
  | nil => exact Nat.zero_le _
  | cons v vs ih =>
      simp only [itemLines, String.toList_append, List.length_append, List.length_cons]
      have hcomma : (",\n".toList).length = 2 := rfl
      omega

/-- Items that are written one a line are read back. -/
theorem items_itemLines {vs : List Toml} (hvs : ∀ v ∈ vs, ReadsBack read v) (rest : List Char)
    {steps : Nat} (hsteps : vs.length < steps) :
    items read steps ('\n' :: ((itemLines vs).toList ++ ']' :: rest)) = some (vs, rest) := by
  obtain ⟨more, rfl⟩ := Nat.exists_eq_add_of_lt hsteps
  clear hsteps
  induction vs with
  | nil =>
      rw [items]
      simp [skipLines, skipSpace, newLine?, itemLines]
  | cons v vs ih =>
      obtain ⟨hv, hothers⟩ := List.forall_mem_cons.mp hvs
      obtain ⟨⟨c, tail, htext, hc⟩, -⟩ := id hv
      have hlines : '\n' :: ((itemLines (v :: vs)).toList ++ ']' :: rest) =
          '\n' :: ' ' :: ' ' :: ' ' :: ' ' :: ((valueText v).toList ++
            ',' :: '\n' :: ((itemLines vs).toList ++ ']' :: rest)) := by
        simp [itemLines]
      have hskip : skipLines (('\n' :: ((itemLines (v :: vs)).toList ++ ']' :: rest)).length + 1)
          ('\n' :: ((itemLines (v :: vs)).toList ++ ']' :: rest)) =
          some ((valueText v).toList ++ ',' :: '\n' :: ((itemLines vs).toList ++ ']' :: rest)) := by
        rw [hlines, htext]
        exact skipLines_line hc.1 _ _
      rw [List.length_cons, Nat.add_right_comm _ 1, items_comma hv hskip, ih hothers]
      rfl

/-- **A list is read back**, on one line or with an item a line. -/
theorem items_array {vs : List Toml} (hvs : ∀ v ∈ vs, ReadsBack read v) (rest : List Char) :
    ∃ inside, (valueText (.array vs)).toList ++ rest = '[' :: inside ∧
      items read (inside.length + 1) inside = some (vs, rest) := by
  match vs, hvs with
  | [], _ => exact ⟨']' :: rest, by simp [valueText], by simp [items, skipLines_of_head]⟩
  | [v], hvs =>
      have hv := hvs v List.mem_cons_self
      refine ⟨(valueText v).toList ++ ']' :: rest, by simp [valueText], items_last hv ?_ _⟩
      obtain ⟨⟨c, tail, htext, hc⟩, -⟩ := hv
      rw [htext, List.cons_append]
      exact skipLines_of_head hc.1 _ _
  | v :: w :: vs, hvs =>
      refine ⟨'\n' :: ((itemLines (v :: w :: vs)).toList ++ ']' :: rest), by simp [valueText], ?_⟩
      refine items_itemLines hvs rest ?_
      have hlength := length_le_itemLines (v :: w :: vs)
      rw [List.length_cons (a := '\n'), List.length_append]
      omega

end Items

/-- **A value is read back from its text.** -/
theorem value_valueText {depth : Nat} {v : Toml} (h : Writable depth v) {rest : List Char}
    (hrest : Closes rest) : value depth ((valueText v).toList ++ rest) = some (v, rest) := by
  induction h generalizing rest with
  | string depth s =>
      rw [valueText]
      exact value_string depth s hrest
  | integer depth hlow hhigh =>
      rw [valueText]
      exact value_integer depth hlow hhigh hrest
  | boolean depth b =>
      cases b with
      | true => simp [valueText, value]
      | false => simp [valueText, value]
  | @array depth vs hitems ih =>
      have hvs : ∀ v ∈ vs, ReadsBack (value depth) v := fun v hv =>
        ⟨(hitems v hv).head, fun rest hrest => ih v hv hrest⟩
      obtain ⟨inside, htext, hread⟩ := items_array hvs rest
      rw [htext, value_array, hread]
      rfl

end OverlayVpn.Toml
