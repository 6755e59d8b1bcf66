import Mathlib.Algebra.Group.Nat.Defs
import OverlayVpn.Text.Decimal
import OverlayVpn.Text.Blank

set_option autoImplicit false

/-! # Decimal digits are read back

A list of ASCII digits stands for the number that the core library computes from it
(`Nat.ofDigitChars`). Printing a number and reading its digits therefore gives the number,
also with zeros in front, and so it is with an integer and its sign. An integer that is cut off is
read as another one if at all, but never as zero (`integer?_front_ne_zero`). Nothing else is read as
a number than its digits with zeros in front (`digits?_eq_some_iff`). -/

namespace OverlayVpn.Text

namespace Decimal

/-- The value of a digit character. -/
theorem digit?_of_isDigit {c : Char} (h : c.isDigit = true) :
    digit? c = some (c.toNat - '0'.toNat) := by
  have hrange : '0' ≤ c ∧ c ≤ '9' := by
    simp only [Char.isDigit, Bool.and_eq_true, decide_eq_true_eq] at h
    exact h
  rw [digit?, if_pos hrange]

theorem digit?_of_not_isDigit {c : Char} (h : c.isDigit = false) : digit? c = none := by
  have hrange : ¬('0' ≤ c ∧ c ≤ '9') := by
    intro hc
    have : c.isDigit = true := by
      simp only [Char.isDigit, Bool.and_eq_true, decide_eq_true_eq]
      exact hc
    simp [this] at h
  rw [digit?, if_neg hrange]

/-- A character is read as a digit exactly when it is one. -/
theorem isSome_digit? (c : Char) : (digit? c).isSome = c.isDigit := by
  cases h : c.isDigit with
  | true => rw [digit?_of_isDigit h]; rfl
  | false => rw [digit?_of_not_isDigit h]; rfl

theorem valueFrom_eq {cs : List Char} (h : ∀ c ∈ cs, c.isDigit = true) (value : Nat) :
    valueFrom value cs = some (Nat.ofDigitChars 10 cs value) := by
  induction cs generalizing value with
  | nil => rw [valueFrom, Nat.ofDigitChars_nil]
  | cons c cs ih =>
      have hc : digit? c = some (c.toNat - '0'.toNat) := digit?_of_isDigit (h c (by simp))
      have hcs := ih (fun d hd => h d (List.mem_cons_of_mem c hd))
      rw [valueFrom, hc, Option.bind_some, hcs, Nat.ofDigitChars_cons, Nat.mul_comm]

theorem digits?_eq {cs : List Char} (hne : cs ≠ []) (h : ∀ c ∈ cs, c.isDigit = true) :
    digits? cs = some (Nat.ofDigitChars 10 cs 0) := by
  cases cs with
  | nil => exact absurd rfl hne
  | cons c cs => exact valueFrom_eq h 0

theorem isDigit_of_mem_digits {n : Nat} {c : Char} (h : c ∈ digits n) : c.isDigit = true :=
  Nat.isDigit_of_mem_toDigits (by decide) (by decide) h

theorem digits_ne_nil (n : Nat) : digits n ≠ [] := Nat.toDigits_ne_nil

/-- **The digits of a number are read back.** -/
theorem digits?_digits (n : Nat) : digits? (digits n) = some n := by
  rw [digits?_eq (digits_ne_nil n) (fun _ => isDigit_of_mem_digits), digits,
    Nat.ofDigitChars_ten_toDigits]

theorem length_digits_le {n k : Nat} (hk : 0 < k) (h : n < 10 ^ k) : (digits n).length ≤ k :=
  (Nat.length_toDigits_le_iff (by decide) hk).mpr h

@[simp] theorem toList_render (n : Nat) : (render n).toList = digits n := by simp [render]

/-! ## Zeros in front -/

theorem toList_padded (width n : Nat) :
    (padded width n).toList = List.replicate (width - (digits n).length) '0' ++ digits n := by
  simp [padded]

theorem isDigit_of_mem_padded {width n : Nat} {c : Char} (h : c ∈ (padded width n).toList) :
    c.isDigit = true := by
  rw [toList_padded, List.mem_append] at h
  rcases h with h | h
  · rw [(List.mem_replicate.mp h).2]; rfl
  · exact isDigit_of_mem_digits h

theorem padded_ne_nil (width n : Nat) : (padded width n).toList ≠ [] := by
  rw [toList_padded]
  exact fun h => digits_ne_nil n (List.append_eq_nil_iff.mp h).2

/-- A padded number is read back. -/
theorem digits?_padded (width n : Nat) : digits? (padded width n).toList = some n := by
  rw [digits?_eq (padded_ne_nil width n) (fun _ => isDigit_of_mem_padded), toList_padded,
    Nat.ofDigitChars_append, Nat.ofDigitChars_replicate_zero, digits, Nat.mul_zero,
    Nat.ofDigitChars_ten_toDigits]

theorem length_padded {width n : Nat} (hw : 0 < width) (h : n < 10 ^ width) :
    (padded width n).toList.length = width := by
  have hlen : (digits n).length ≤ width := length_digits_le hw h
  rw [toList_padded, List.length_append, List.length_replicate]
  omega

end Decimal

/-! ## Digits among other characters -/

/-- A digit is no blank. -/
theorem isBlank_of_isDigit {c : Char} (h : c.isDigit = true) : isBlank c = false := by
  have hc : 48 ≤ c.toNat ∧ c.toNat ≤ 57 := by
    simp only [Char.isDigit, Bool.and_eq_true, decide_eq_true_eq] at h
    exact ⟨h.1, h.2⟩
  simp only [isBlank, Bool.or_eq_false_iff, Bool.and_eq_false_iff, decide_eq_false_iff_not,
    beq_eq_false_iff_ne]
  omega

/-- A character that is no digit does not occur among digits. -/
theorem not_mem_of_isDigit {cs : List Char} (h : ∀ c ∈ cs, c.isDigit = true) {d : Char}
    (hd : d.isDigit = false) : d ∉ cs := by
  intro hmem
  simp [h d hmem] at hd

namespace Decimal

/-! ## Numbers in range, and integers with their signs -/

theorem head_digits_ne {n : Nat} {c : Char} (hc : c.isDigit = false) (rest : List Char) :
    digits n ≠ c :: rest := by
  intro h
  exact not_mem_of_isDigit (fun _ => isDigit_of_mem_digits) hc (h ▸ List.mem_cons_self)

/-- A number is read back, if it is in range. -/
theorem natural?_digits {bound n : Nat} (h : n < bound) : natural? bound (digits n) = some n := by
  unfold natural?
  split
  · next hplus => exact absurd hplus (head_digits_ne rfl _)
  · simp only [digits?_digits, Option.filter_some, h, decide_true, if_true]

theorem word16?_render (n : UInt16) : word16? (render n.toNat) = some n := by
  rw [word16?, toList_render, natural?_digits n.toNat_lt, Option.map_some, UInt16.ofNat_toNat]

theorem word32?_render (n : UInt32) : word32? (render n.toNat) = some n := by
  rw [word32?, toList_render, natural?_digits n.toNat_lt, Option.map_some, UInt32.ofNat_toNat]

theorem word64?_render (n : UInt64) : word64? (render n.toNat) = some n := by
  rw [word64?, toList_render, natural?_digits n.toNat_lt, Option.map_some, UInt64.ofNat_toNat]

/-- The characters of an integer: its digits, after a `-` if it is negative. -/
theorem toList_renderInt (n : Int) :
    (renderInt n).toList = if n < 0 then '-' :: digits n.natAbs else digits n.natAbs := by
  unfold renderInt
  split <;> simp

/-- Digits alone are an integer without a sign. -/
theorem integer?_digits (bound n : Nat) :
    integer? bound (digits n) = if n < bound then some (n : Int) else none := by
  unfold integer?
  split
  · next h => exact absurd h (head_digits_ne rfl _)
  · next h => exact absurd h (head_digits_ne rfl _)
  · rw [digits?_digits, Option.bind_some]

theorem integer?_minus_digits (bound n : Nat) :
    integer? bound ('-' :: digits n) = if n ≤ bound then some (-(n : Int)) else none := by
  rw [integer?, digits?_digits, Option.bind_some]

/-- **An integer is read back**, if it is in range. -/
theorem integer?_renderInt {bound : Nat} {n : Int} (hlow : -(bound : Int) ≤ n) (hhigh : n < bound) :
    integer? bound (renderInt n).toList = some n := by
  rw [toList_renderInt]
  split
  · rw [integer?_minus_digits, if_pos (by omega)]
    congr 1
    omega
  · rw [integer?_digits, if_pos (by omega)]
    congr 1
    omega

/-- The first digits of a number are the digits of a number, which is not zero if any are missing. -/
theorem exists_digits_front {n : Nat} {front : List Char} (h : front <+: digits n)
    (hne : front ≠ []) : ∃ m, front = digits m ∧ (front ≠ digits n → 0 < m) := by
  induction n using Nat.strongRecOn with
  | ind n ih =>
      rcases Nat.lt_or_ge n 10 with hn | hn
      · have hone : digits n = [] ++ [n.digitChar] := Nat.toDigits_of_lt_base hn
        rw [hone] at h
        rcases List.prefix_concat_iff.mp h with heq | hnil
        · exact ⟨n, heq.trans hone.symm, fun hmissing => absurd (heq.trans hone.symm) hmissing⟩
        · exact absurd (List.prefix_nil.mp hnil) hne
      · have hmore : digits n = digits (n / 10) ++ [(n % 10).digitChar] :=
          Nat.toDigits_of_base_le (by decide) hn
        rw [hmore] at h
        rcases List.prefix_concat_iff.mp h with heq | hshorter
        · exact ⟨n, heq.trans hmore.symm, fun _ => by omega⟩
        · by_cases hall : front = digits (n / 10)
          · exact ⟨n / 10, hall, fun _ => by omega⟩
          · obtain ⟨m, hm, hpos⟩ := ih (n / 10) (by omega) hshorter
            exact ⟨m, hm, fun _ => hpos hall⟩

/-- Digits of which some are missing at the end are not read as zero. -/
theorem digits?_front_ne_zero {n : Nat} {front : List Char} (h : front <+: digits n)
    (hmissing : front ≠ digits n) : digits? front ≠ some 0 := by
  by_cases hnil : front = []
  · rw [hnil]
    simp [digits?]
  · obtain ⟨m, rfl, hpos⟩ := exists_digits_front h hnil
    have hm : 0 < m := hpos hmissing
    rw [digits?_digits]
    exact fun heq => absurd (Option.some.inj heq) (by omega)

/-- What is read as zero has the digits of zero, and perhaps a sign. -/
theorem digits?_of_integer?_zero {bound : Nat} {cs : List Char} (h : integer? bound cs = some 0) :
    digits? cs = some 0 ∨
      ∃ sign rest, sign.isDigit = false ∧ cs = sign :: rest ∧ digits? rest = some 0 := by
  unfold integer? at h
  split at h <;> obtain ⟨m, hm, hsign⟩ := Option.bind_eq_some_iff.mp h <;>
    split at hsign <;> simp only [Option.some.injEq, reduceCtorEq] at hsign <;>
    obtain rfl : m = 0 := by omega
  · exact Or.inr ⟨_, _, rfl, rfl, hm⟩
  · exact Or.inr ⟨_, _, rfl, rfl, hm⟩
  · exact Or.inl hm

/-- **An integer that is cut off is not read as zero.** -/
theorem integer?_front_ne_zero {bound : Nat} {n : Int} {front : List Char}
    (h : front <+: (renderInt n).toList) (hmissing : front ≠ (renderInt n).toList) :
    integer? bound front ≠ some 0 := by
  rw [toList_renderInt] at h hmissing
  intro hread
  split at h
  · next hneg =>
      rw [if_pos hneg] at hmissing
      rcases List.prefix_cons_iff.mp h with rfl | ⟨rest, rfl, hrest⟩
      · cases hread
      · have hrestMissing : rest ≠ digits n.natAbs := fun heq => hmissing (by rw [heq])
        rcases digits?_of_integer?_zero hread with hdigits | ⟨sign, digits, -, heq, hdigits⟩
        · cases hdigits
        · obtain ⟨-, rfl⟩ := List.cons.inj heq
          exact digits?_front_ne_zero hrest hrestMissing hdigits
  · next hpos =>
      rw [if_neg hpos] at hmissing
      rcases digits?_of_integer?_zero hread with hdigits | ⟨sign, rest, hsign, rfl, -⟩
      · exact digits?_front_ne_zero h hmissing hdigits
      · exact not_mem_of_isDigit (fun _ => isDigit_of_mem_digits) hsign
          (h.subset List.mem_cons_self)

/-! ## All spellings of a number -/

theorem forall_isDigit_of_valueFrom {cs : List Char} {value n : Nat}
    (h : valueFrom value cs = some n) : ∀ c ∈ cs, c.isDigit = true := by
  induction cs generalizing value with
  | nil => simp
  | cons c cs ih =>
      obtain ⟨d, hd, hrest⟩ := Option.bind_eq_some_iff.mp h
      have hc : c.isDigit = true := by rw [← isSome_digit?, hd]; rfl
      exact List.forall_mem_cons.mpr ⟨hc, ih hrest⟩

theorem forall_isDigit_of_digits? {cs : List Char} {n : Nat} (h : digits? cs = some n) :
    cs ≠ [] ∧ ∀ c ∈ cs, c.isDigit = true := by
  cases cs with
  | nil => cases h
  | cons c cs => exact ⟨List.cons_ne_nil c cs, forall_isDigit_of_valueFrom h⟩

theorem digitValue_lt {c : Char} (h : c.isDigit = true) : c.toNat - '0'.toNat < 10 := by
  simp only [Char.isDigit, Bool.and_eq_true, decide_eq_true_eq] at h
  have hhigh : c.toNat ≤ 57 := h.2
  have hzero : '0'.toNat = 48 := rfl
  omega

theorem digitChar_of_isDigit {c : Char} (h : c.isDigit = true) :
    (c.toNat - '0'.toNat).digitChar = c := by
  have hall : ∀ d < 10, d.digitChar = Char.ofNat (48 + d) := by decide
  simp only [Char.isDigit, Bool.and_eq_true, decide_eq_true_eq] at h
  have hlow : 48 ≤ c.toNat := h.1
  have hhigh : c.toNat ≤ 57 := h.2
  have hzero : '0'.toNat = 48 := rfl
  rw [hall _ (by omega), hzero, Nat.add_sub_cancel' hlow, Char.ofNat_toNat]

/-- Further digits after those of a number that is not zero make the digits of a number. -/
theorem digits_ofDigitChars {cs : List Char} (h : ∀ c ∈ cs, c.isDigit = true) {value : Nat}
    (hpos : 0 < value) : digits (Nat.ofDigitChars 10 cs value) = digits value ++ cs := by
  induction cs generalizing value with
  | nil => rw [Nat.ofDigitChars_nil, List.append_nil]
  | cons c cs ih =>
      obtain ⟨hc, hcs⟩ := List.forall_mem_cons.mp h
      have hlt := digitValue_lt hc
      have hmore : digits (10 * value + (c.toNat - '0'.toNat)) = digits value ++ [c] := by
        rw [digits, digits, Nat.toDigits_of_base_le (by decide) (by omega), Nat.mul_add_div (by decide),
          Nat.div_eq_of_lt hlt, Nat.add_zero, Nat.mul_add_mod, Nat.mod_eq_of_lt hlt,
          digitChar_of_isDigit hc]
      rw [Nat.ofDigitChars_cons, ih hcs (by omega), hmore, List.append_assoc,
        List.singleton_append]

/-- **The digits that are read as a number** are its own, with zeros in front. -/
theorem digits?_eq_some_iff {cs : List Char} {n : Nat} :
    digits? cs = some n ↔ ∃ k, cs = List.replicate k '0' ++ digits n := by
  constructor
  · intro h
    obtain ⟨hne, hdigits⟩ := forall_isDigit_of_digits? h
    rw [digits?_eq hne hdigits] at h
    obtain rfl := Option.some.inj h
    clear h
    induction cs with
    | nil => exact absurd rfl hne
    | cons c cs ih =>
        obtain ⟨hc, hcs⟩ := List.forall_mem_cons.mp hdigits
        rw [Nat.ofDigitChars_cons, Nat.mul_zero, Nat.zero_add]
        by_cases hzero : c.toNat - '0'.toNat = 0
        · have hsame : c = '0' := by
            rw [← digitChar_of_isDigit hc, hzero]
            rfl
          rw [hzero, hsame]
          by_cases hnil : cs = []
          · exact ⟨0, by rw [hnil]; rfl⟩
          · obtain ⟨k, hk⟩ := ih hnil hcs
            exact ⟨k + 1, by rw [List.replicate_succ, List.cons_append, ← hk]⟩
        · refine ⟨0, ?_⟩
          have hone : digits (c.toNat - '0'.toNat) = [c] := by
            rw [digits, Nat.toDigits_of_lt_base (digitValue_lt hc), digitChar_of_isDigit hc]
          rw [digits_ofDigitChars hcs (by omega), hone]
          rfl
  · rintro ⟨k, rfl⟩
    have hdigits : ∀ c ∈ List.replicate k '0' ++ digits n, c.isDigit = true := by
      intro c hc
      rcases List.mem_append.mp hc with h | h
      · rw [(List.mem_replicate.mp h).2]
        rfl
      · exact isDigit_of_mem_digits h
    rw [digits?_eq (by simp [digits_ne_nil]) hdigits, Nat.ofDigitChars_append,
      Nat.ofDigitChars_replicate_zero, digits, Nat.mul_zero, Nat.ofDigitChars_ten_toDigits]

/-- **The spellings of a number in range**: its digits, with zeros and a `+` in front. -/
theorem natural?_eq_some_iff {bound n : Nat} {cs : List Char} :
    natural? bound cs = some n ↔ n < bound ∧ ∃ k,
      cs = List.replicate k '0' ++ digits n ∨ cs = '+' :: (List.replicate k '0' ++ digits n) := by
  have hplus (k : Nat) (rest : List Char) : List.replicate k '0' ++ digits n ≠ '+' :: rest := by
    intro h
    have hmem : '+' ∈ List.replicate k '0' ++ digits n := h ▸ List.mem_cons_self
    rcases List.mem_append.mp hmem with h | h
    · exact absurd (List.mem_replicate.mp h).2 (by decide)
    · exact absurd (isDigit_of_mem_digits h) (by decide)
  unfold natural?
  dsimp only
  rw [Option.filter_eq_some_iff, decide_eq_true_eq, and_comm]
  refine and_congr_right fun _ => ?_
  split
  · next rest =>
      rw [digits?_eq_some_iff]
      refine exists_congr fun k => ⟨fun h => Or.inr (by rw [h]), fun h => ?_⟩
      rcases h with h | h
      · exact absurd h.symm (hplus k rest)
      · exact (List.cons.inj h).2
  · next hnone =>
      rw [digits?_eq_some_iff]
      exact exists_congr fun k => ⟨Or.inl, fun h => h.resolve_right (hnone _)⟩

end Decimal
end OverlayVpn.Text
