import OverlayVpn.Proofs.Text.Blank
import OverlayVpn.Proofs.Text.Decimal
import OverlayVpn.Time.Rfc3339

set_option autoImplicit false

/-! # Written timestamps are read back

A number with zeros in front is read up to its last digit, when no digit follows or the reader
takes no more of them. Part by part, the text of a timestamp is then read back: its date, its time
of day with a fraction or a leap second, and its zone. -/

namespace OverlayVpn

namespace Timestamp

open Text Calendar

/-! ## Numbers -/

theorem skipBlanks_cons {c : Char} (h : isBlank c = false) (cs : List Char) :
    skipBlanks (c :: cs) = c :: cs := by
  rw [skipBlanks, List.dropWhile_cons_of_neg (by simp [h])]

/-- What a number is read off: digits, of which there are as many as the reader takes or after
which comes no digit. -/
theorem takeWhile_take_append {ds rest : List Char} {most : Nat} (hd : ∀ c ∈ ds, c.isDigit = true)
    (hlen : ds.length ≤ most)
    (hrest : ds.length = most ∨ ∀ c, rest.head? = some c → c.isDigit = false) :
    ((ds ++ rest).take most).takeWhile (Decimal.digit? · |>.isSome) = ds := by
  have hds : ∀ c ∈ ds, (Decimal.digit? c).isSome = true := fun c hc => by
    rw [Decimal.isSome_digit?, hd c hc]
  rw [List.take_append, List.take_of_length_le hlen, List.takeWhile_append_of_pos hds]
  -- the reader is full, or the next character is no digit
  rcases hrest with hfull | hrest
  · rw [hfull, Nat.sub_self, List.take_zero, List.takeWhile_nil, List.append_nil]
  · cases rest with
    | nil => simp
    | cons c rest =>
        have hc : (Decimal.digit? c).isSome = false := by rw [Decimal.isSome_digit?, hrest c rfl]
        cases hroom : most - ds.length with
        | zero => rw [List.take_zero, List.takeWhile_nil, List.append_nil]
        | succ n =>
            rw [List.take_succ_cons, List.takeWhile_cons_of_neg (by simp [hc]), List.append_nil]

/-- **A number with zeros in front is read back.** -/
theorem number?_padded {width n most : Nat} {rest : List Char}
    (hlen : (Decimal.padded width n).toList.length ≤ most)
    (hrest : (Decimal.padded width n).toList.length = most ∨
      ∀ c, rest.head? = some c → c.isDigit = false) :
    number? most ((Decimal.padded width n).toList ++ rest) = some (n, rest) := by
  simp only [number?, takeWhile_take_append (fun _ => Decimal.isDigit_of_mem_padded) hlen hrest,
    Decimal.digits?_padded, Option.map_some, List.drop_left]

/-- A number with zeros in front starts with a digit. -/
theorem padded_eq_cons (width n : Nat) :
    ∃ c cs, (Decimal.padded width n).toList = c :: cs ∧ c.isDigit = true := by
  cases h : (Decimal.padded width n).toList with
  | nil => exact absurd h (Decimal.padded_ne_nil width n)
  | cons c cs =>
      exact ⟨c, cs, rfl, Decimal.isDigit_of_mem_padded (by rw [h]; exact List.mem_cons_self)⟩

theorem skipBlanks_padded (width n : Nat) (rest : List Char) :
    skipBlanks ((Decimal.padded width n).toList ++ rest) =
      (Decimal.padded width n).toList ++ rest := by
  obtain ⟨c, cs, hcons, hc⟩ := padded_eq_cons width n
  rw [hcons]
  exact skipBlanks_cons (isBlank_of_isDigit hc) (cs ++ rest)

theorem short?_padded {n : Nat} (h : n < 100) (rest : List Char) :
    short? ((Decimal.padded 2 n).toList ++ rest) = some (n, rest) := by
  have hlen : (Decimal.padded 2 n).toList.length = 2 := Decimal.length_padded (by decide) h
  rw [short?, skipBlanks_padded, number?_padded (by omega) (Or.inl hlen)]

theorem past_cons {c : Char} (h : isBlank c = false) (rest : List Char) :
    past c (c :: rest) = some rest := by
  rw [past, skipBlanks_cons h]
  simp

/-! ## Dates -/

/-- Digits without a sign are a year of four digits at most. -/
theorem year?_of_isDigit {c : Char} (h : c.isDigit = true) (cs : List Char) :
    year? (c :: cs) = (number? 4 (c :: cs)).map fun (n, rest) => ((n : Int), rest) := by
  unfold year?
  rw [skipBlanks_cons (isBlank_of_isDigit h)]
  split
  · next hsign =>
      rw [(List.cons.inj hsign).1] at h
      exact absurd h (by decide)
  · next hsign =>
      rw [(List.cons.inj hsign).1] at h
      exact absurd h (by decide)
  · rfl

/-- **A year is read back**, with its sign if it has one. -/
theorem year?_yearText (year : Int) (rest : List Char)
    (hrest : ∀ c, rest.head? = some c → c.isDigit = false) :
    year? ((yearText year).toList ++ rest) = some (year, rest) := by
  unfold yearText
  split
  · next hplain =>
      have hlen : (Decimal.padded 4 year.toNat).toList.length = 4 :=
        Decimal.length_padded (by decide) (by omega)
      have hnumber : number? 4 ((Decimal.padded 4 year.toNat).toList ++ rest) =
          some (year.toNat, rest) := number?_padded (by omega) (Or.inl hlen)
      obtain ⟨c, cs, hcons, hc⟩ := padded_eq_cons 4 year.toNat
      rw [hcons, List.cons_append] at hnumber ⊢
      rw [year?_of_isDigit hc, hnumber]
      simp only [Option.map_some, Int.toNat_of_nonneg hplain.1]
  · -- a year with a sign may have more than four digits, so that the rest must begin with none
    have hnumber : longNumber? ((Decimal.padded 4 year.natAbs).toList ++ rest) =
        some (year.natAbs, rest) :=
      number?_padded (by rw [List.length_append]; omega) (Or.inr hrest)
    split
    · next hneg =>
        rw [String.toList_append, List.append_assoc]
        show year? ('-' :: ((Decimal.padded 4 year.natAbs).toList ++ rest)) = _
        simp only [year?, skipBlanks_cons (c := '-') rfl, hnumber, Option.map_some]
        rw [Int.ofNat_natAbs_of_nonpos (by omega), Int.neg_neg]
    · next hpos =>
        rw [String.toList_append, List.append_assoc]
        show year? ('+' :: ((Decimal.padded 4 year.natAbs).toList ++ rest)) = _
        simp only [year?, skipBlanks_cons (c := '+') rfl, hnumber, Option.map_some]
        rw [Int.natAbs_of_nonneg (by omega)]

/-- A date's text. -/
def dateText (d : Date) : String :=
  yearText d.year ++ "-" ++ Decimal.padded 2 d.month ++ "-" ++ Decimal.padded 2 d.day

theorem valid_date_iff {d : Date} : d.valid = true ↔
    firstYear ≤ d.year ∧ d.year ≤ lastYear ∧ 1 ≤ d.month ∧ d.month ≤ 12 ∧ 1 ≤ d.day ∧
      d.day ≤ daysInMonth d.year d.month := by
  simp [Date.valid, and_assoc]

theorem daysInMonth_le (year : Int) (month : Nat) : daysInMonth year month ≤ 31 := by
  unfold daysInMonth
  split
  · split <;> omega
  all_goals omega

/-- **A date is read back.** -/
theorem date?_dateText {d : Date} (h : d.valid = true) (rest : List Char) :
    date? ((dateText d).toList ++ rest) = some (d, rest) := by
  have hvalid := valid_date_iff.mp h
  have hdays := daysInMonth_le d.year d.month
  simp only [dateText, String.toList_append, List.append_assoc]
  show date? ((yearText d.year).toList ++ '-' :: ((Decimal.padded 2 d.month).toList ++
    '-' :: ((Decimal.padded 2 d.day).toList ++ rest))) = _
  have hyear := year?_yearText d.year ('-' :: ((Decimal.padded 2 d.month).toList ++
    '-' :: ((Decimal.padded 2 d.day).toList ++ rest))) (by rintro c ⟨⟩; rfl)
  simp only [date?, hyear, Option.bind_eq_bind, Option.bind_some, past_cons (c := '-') rfl,
    short?_padded (show d.month < 100 by omega), short?_padded (show d.day < 100 by omega)]
  rfl

/-! ## Times of day -/

theorem valid_time_iff {t : TimeOfDay} : t.valid = true ↔
    t.hour < 24 ∧ t.minute < 60 ∧ t.second < 60 ∧ t.nano < 2000000000 ∧
      (t.nano < 1000000000 ∨ t.second = 59) := by
  simp [TimeOfDay.valid, and_assoc]

/-- A fraction's digits are read up to the zone. -/
theorem fraction?_padded {width n : Nat} (hpos : 0 < width) (hwidth : width ≤ 9)
    (h : n < 10 ^ width) :
    fraction? (("." ++ Decimal.padded width n).toList ++ ['Z']) =
      some (n * Nat.pow 10 (9 - width), ['Z']) := by
  have hlen := Decimal.length_padded hpos h
  have hnumber : number? 9 ((Decimal.padded width n).toList ++ ['Z']) = some (n, ['Z']) :=
    number?_padded (by omega) (Or.inr (by rintro c ⟨⟩; rfl))
  rw [String.toList_append, List.append_assoc]
  show fraction? ('.' :: ((Decimal.padded width n).toList ++ ['Z'])) = _
  simp only [fraction?, hnumber, Option.bind_eq_bind, Option.bind_some, List.length_append, hlen,
    List.length_singleton, Nat.add_sub_cancel]
  rfl

/-- **A fraction is read back**, in whatever group of digits it is written. -/
theorem fraction?_fractionText {nano : Nat} (h : nano < 1000000000) :
    fraction? ((fractionText nano).toList ++ ['Z']) = some (nano, ['Z']) := by
  unfold fractionText
  split
  · next hzero => rw [hzero]; rfl
  split
  · next hmilli =>
      rw [fraction?_padded (by decide) (by decide) (by omega)]
      show some (nano / 1000000 * 1000000, ['Z']) = _
      rw [Nat.div_mul_cancel (Nat.dvd_of_mod_eq_zero hmilli)]
  split
  · next hmicro =>
      rw [fraction?_padded (by decide) (by decide) (by omega)]
      show some (nano / 1000 * 1000, ['Z']) = _
      rw [Nat.div_mul_cancel (Nat.dvd_of_mod_eq_zero hmicro)]
  · rw [fraction?_padded (by decide) (by decide) (by omega)]
    show some (nano * 1, ['Z']) = _
    rw [Nat.mul_one]

/-- A time of day whose seconds and nanoseconds are written as given. -/
def clockText (hour minute second nano : Nat) : String :=
  Decimal.padded 2 hour ++ ":" ++ Decimal.padded 2 minute ++ ":" ++ Decimal.padded 2 second ++
    fractionText nano

theorem time?_clockText {hour minute second nano : Nat} (hhour : hour < 24) (hminute : minute < 60)
    (hsecond : second ≤ 60) (hnano : nano < 1000000000) :
    time? ((clockText hour minute second nano).toList ++ ['Z']) =
      some (if second = 60 then ⟨hour, minute, 59, nano + 1000000000⟩
        else ⟨hour, minute, second, nano⟩, ['Z']) := by
  simp only [clockText, String.toList_append, List.append_assoc]
  show time? ((Decimal.padded 2 hour).toList ++ ':' :: ((Decimal.padded 2 minute).toList ++
    ':' :: ((Decimal.padded 2 second).toList ++ ((fractionText nano).toList ++ ['Z'])))) = _
  simp only [time?, short?_padded (show hour < 100 by omega), Option.bind_eq_bind,
    Option.bind_some, past_cons (c := ':') rfl, short?_padded (show minute < 100 by omega),
    short?_padded (show second < 100 by omega), fraction?_fractionText hnano]
  rfl

/-- A time of day with a leap second as second 60. -/
def leapText (t : TimeOfDay) : String :=
  clockText t.hour t.minute (if 1000000000 ≤ t.nano then t.second + 1 else t.second)
    (if 1000000000 ≤ t.nano then t.nano - 1000000000 else t.nano)

/-- **A time of day is read back**, be it in a leap second. -/
theorem time?_leapText {t : TimeOfDay} (h : t.valid = true) :
    time? ((leapText t).toList ++ ['Z']) = some (t, ['Z']) := by
  have hvalid := valid_time_iff.mp h
  obtain ⟨hour, minute, second, nano⟩ := t
  simp only at hvalid
  have hsecond : (if 1000000000 ≤ nano then second + 1 else second) ≤ 60 := by split <;> omega
  have hnano : (if 1000000000 ≤ nano then nano - 1000000000 else nano) < 1000000000 := by
    split <;> omega
  rw [leapText, time?_clockText hvalid.1 hvalid.2.1 hsecond hnano]
  by_cases hleap : 1000000000 ≤ nano
  · have hsecond : second = 59 := by omega
    simp [hleap, hsecond]
  · have hsecond : second ≠ 60 := by omega
    simp [hleap, hsecond]

/-! ## Timestamps -/

theorem ofLocal?_universal (t : Timestamp) : ofLocal? t.date t.time 0 = some t := by
  have htime := valid_time_iff.mp t.time_valid
  have hminutes : ((t.time.hour : Int) * 60 + t.time.minute - 0) % 1440 =
      (t.time.hour * 60 + t.time.minute : Nat) := by omega
  have hback : ¬((t.time.hour : Int) * 60 + t.time.minute - 0 < 0) := by omega
  have hahead : ¬(1440 ≤ (t.time.hour : Int) * 60 + t.time.minute - 0) := by omega
  have hhour : (t.time.hour * 60 + t.time.minute) / 60 = t.time.hour := by omega
  have hminute : (t.time.hour * 60 + t.time.minute) % 60 = t.time.minute := by omega
  simp only [ofLocal?, t.date_valid, t.time_valid, Bool.and_self, if_true, if_neg hback,
    if_neg hahead, hminutes, Int.toNat_natCast, hhour, hminute, ofFields?, and_self, dif_pos]

/-- The text of a timestamp: its date, its time of day and the sign of universal time. A leap
second is written as second 60. -/
theorem toList_text (t : Timestamp) :
    t.text.toList = (dateText t.date).toList ++ 'T' :: ((leapText t.time).toList ++ ['Z']) := by
  simp only [text, dateText, leapText, clockText, String.toList_append, List.append_assoc]
  rfl

/-- **A timestamp is read back.** -/
theorem read?_text (t : Timestamp) : read? t.text = some t := by
  rw [read?, ofChars?, toList_text, date?_dateText t.date_valid]
  simp only [Option.bind_eq_bind, Option.bind_some, time?_leapText t.time_valid]
  exact ofLocal?_universal t

end Timestamp

end OverlayVpn
