import Mathlib.Data.List.Forall2
import OverlayVpn.Proofs.Net.Ipv4

set_option autoImplicit false

/-! # Spellings of an address

An entry names an address alone or together with a network's length. With a length the octets may
have zeros in front; alone they may not, so that an address alone has one spelling. `Entry` says how
an address can be spelled, and an entry names the address exactly when it is one of these spellings
with any blanks around it (`ofEntry?_eq_some_iff`). An octet above 255 or a length above 32 spoils
every entry that it stands in. -/

namespace OverlayVpn

open Text

namespace Text.Decimal

/-- A number in at most `width` digits: its own, with zeros in front. -/
structure Numeral (width n : Nat) (cs : List Char) : Prop where
  fits : cs.length ≤ width
  padded : ∃ zeros, cs = List.replicate zeros '0' ++ digits n

variable {width n : Nat} {cs : List Char}

/-- The digits that stand for a number are a numeral, if they are not too many. -/
theorem numeral_iff : Numeral width n cs ↔ cs.length ≤ width ∧ digits? cs = some n := by
  rw [digits?_eq_some_iff]
  exact ⟨fun h => ⟨h.fits, h.padded⟩, fun h => ⟨h.1, h.2⟩⟩

theorem Numeral.digits?_eq (h : Numeral width n cs) : digits? cs = some n := (numeral_iff.mp h).2

theorem Numeral.isDigit (h : Numeral width n cs) : ∀ c ∈ cs, c.isDigit = true :=
  (forall_isDigit_of_digits? h.digits?_eq).2

end Text.Decimal

namespace Ipv4

/-! ## Octets -/

variable {leadingZeros : Bool} {cs : List Char} {n : Nat} {a : Ipv4}

theorem octet?_true_eq_some_iff :
    octet? true cs = some n ↔ n < 256 ∧ Decimal.Numeral 3 n cs := by
  unfold octet?
  split
  · next hlong => simpa using fun _ (h : Decimal.Numeral 3 n cs) => absurd h.fits (by omega)
  · next hshort =>
      simp only [Bool.not_true, Bool.false_and, Bool.false_eq_true, if_false,
        Option.filter_eq_some_iff, decide_eq_true_eq]
      exact ⟨fun h => ⟨h.2, Decimal.numeral_iff.mpr ⟨by omega, h.1⟩⟩,
        fun h => ⟨h.2.digits?_eq, h.1⟩⟩

/-- Without zeros in front an octet has one spelling. -/
theorem octet?_false_eq_some_iff :
    octet? false cs = some n ↔ n < 256 ∧ cs = Decimal.digits n := by
  constructor
  · intro h
    unfold octet? at h
    split at h
    · cases h
    · split at h
      · cases h
      · next hzero =>
          obtain ⟨hread, hlt⟩ := Option.filter_eq_some_iff.mp h
          refine ⟨of_decide_eq_true hlt, ?_⟩
          obtain ⟨zeros, rfl⟩ := Decimal.digits?_eq_some_iff.mp hread
          cases zeros with
          | zero => rfl
          | succ zeros =>
              -- a zero in front is not the only digit
              have hpos : 0 < (Decimal.digits n).length :=
                List.length_pos_iff.mpr (Decimal.digits_ne_nil n)
              refine absurd ?_ hzero
              simp [List.replicate_succ]
              omega
  · rintro ⟨hlt, rfl⟩
    exact octet?_digits false hlt

theorem octet?_lt (h : octet? leadingZeros cs = some n) : n < 256 := by
  cases leadingZeros with
  | true => exact (octet?_true_eq_some_iff.mp h).1
  | false => exact (octet?_false_eq_some_iff.mp h).1

/-! ## Addresses -/

/-- The octets that an address is made of are its octets. -/
theorem octets_ofOctets {a b c d : Nat} (ha : a < 256) (hb : b < 256) (hc : c < 256)
    (hd : d < 256) : (ofOctets a b c d).octets = [a, b, c, d] := by
  have hlt : ((a * 256 + b) * 256 + c) * 256 + d < UInt32.size := by
    simp only [UInt32.size]
    omega
  have hnat : (ofOctets a b c d).toNat = ((a * 256 + b) * 256 + c) * 256 + d := toNat_ofNat hlt
  simp only [octets, hnat, List.cons.injEq, and_true]
  omega

/-- **An address is read octet by octet.** -/
theorem ofChars?_eq_some_iff :
    ofChars? leadingZeros cs = some a ↔
      List.Forall₂ (fun n part => octet? leadingZeros part = some n) a.octets
        (pieces (· == '.') cs) := by
  constructor
  · intro h
    unfold ofChars? at h
    split at h
    · next p₁ p₂ p₃ p₄ hpieces =>
        obtain ⟨n₁, h₁, h⟩ := Option.bind_eq_some_iff.mp h
        obtain ⟨n₂, h₂, h⟩ := Option.bind_eq_some_iff.mp h
        obtain ⟨n₃, h₃, h⟩ := Option.bind_eq_some_iff.mp h
        obtain ⟨n₄, h₄, h⟩ := Option.bind_eq_some_iff.mp h
        obtain rfl := Option.some.inj h
        rw [hpieces, octets_ofOctets (octet?_lt h₁) (octet?_lt h₂) (octet?_lt h₃) (octet?_lt h₄)]
        exact .cons h₁ (.cons h₂ (.cons h₃ (.cons h₄ .nil)))
    · cases h
  · intro h
    unfold octets at h
    generalize hpieces : pieces (· == '.') cs = parts at h
    obtain _ | ⟨h₁, _ | ⟨h₂, _ | ⟨h₃, _ | ⟨h₄, h⟩⟩⟩⟩ := h
    cases h
    simp only [ofChars?, hpieces, h₁, h₂, h₃, h₄, Option.bind_eq_bind, Option.bind_some]
    exact congrArg some (ofOctets_octets a)

/-- An address alone has one spelling, its text. -/
theorem ofChars?_false_eq_some_iff : ofChars? false cs = some a ↔ cs = a.text.toList := by
  constructor
  · intro h
    have hdigits : List.Forall₂ (fun n part => Decimal.digits n = part) a.octets
        (pieces (· == '.') cs) :=
      (ofChars?_eq_some_iff.mp h).imp fun _ _ hread => (octet?_false_eq_some_iff.mp hread).2.symm
    rw [← List.forall₂_map_left_iff, List.forall₂_eq_eq_eq] at hdigits
    have hpieces : pieces (· == '.') cs = pieces (· == '.') a.text.toList :=
      hdigits.symm.trans (pieces_text a).symm
    rw [← intercalate_pieces '.' cs, hpieces, intercalate_pieces]
  · rintro rfl
    exact ofChars?_text false a

/-- Four octets of an address with dots between them, each in up to three digits. -/
def Spelling (a : Ipv4) (cs : List Char) : Prop :=
  ∃ parts, List.Forall₂ (Decimal.Numeral 3) a.octets parts ∧ cs = ['.'].intercalate parts

/-- The parts of a spelling are numerals of its numbers. -/
theorem exists_numeral_of_mem {ns : List Nat} {parts : List (List Char)} {width : Nat}
    (h : List.Forall₂ (Decimal.Numeral width) ns parts) :
    ∀ part ∈ parts, ∃ n ∈ ns, Decimal.Numeral width n part := by
  induction h with
  | nil => simp
  | cons hpart _ ih =>
      refine List.forall_mem_cons.mpr ⟨⟨_, List.mem_cons_self, hpart⟩, fun part hmem => ?_⟩
      obtain ⟨n, hn, hnumeral⟩ := ih part hmem
      exact ⟨n, List.mem_cons_of_mem _ hn, hnumeral⟩

/-- What stands between the numbers of an entry. -/
def isDivider (c : Char) : Bool := c == '.' || c == '/'

theorem isDivider_of_isDigit {c : Char} (h : c.isDigit = true) : isDivider c = false := by
  rw [isDivider, Bool.or_eq_false_iff, beq_eq_false_iff_ne, beq_eq_false_iff_ne]
  constructor <;> rintro rfl <;> cases h

/-- A spelling, taken apart where there are no digits, gives its octets. -/
theorem Spelling.pieces_eq (h : a.Spelling cs) {p : Char → Bool} (hdot : p '.' = true)
    (hdigit : ∀ c, c.isDigit = true → p c = false) :
    List.Forall₂ (Decimal.Numeral 3) a.octets (pieces p cs) := by
  obtain ⟨parts, hparts, rfl⟩ := h
  have hne : parts ≠ [] := by
    rintro rfl
    cases hparts
  -- each part is all digits, so that none is taken apart any further
  have hnone : ∀ part ∈ parts, ∀ c ∈ part, p c = false := by
    intro part hpart c hc
    obtain ⟨n, -, hnumeral⟩ := exists_numeral_of_mem hparts part hpart
    exact hdigit c (hnumeral.isDigit c hc)
  rwa [pieces_intercalate hdot hne hnone]

theorem Spelling.pieces_dividers (h : a.Spelling cs) :
    List.Forall₂ (Decimal.Numeral 3) a.octets (pieces isDivider cs) :=
  h.pieces_eq rfl fun _ => isDivider_of_isDigit

theorem Spelling.pieces_dots (h : a.Spelling cs) :
    List.Forall₂ (Decimal.Numeral 3) a.octets (pieces (· == '.') cs) :=
  h.pieces_eq rfl fun _ hc => (Bool.or_eq_false_iff.mp (isDivider_of_isDigit hc)).1

/-- Where zeros may stand in front, the spellings of an address are read. -/
theorem ofChars?_true_eq_some_iff : ofChars? true cs = some a ↔ a.Spelling cs := by
  rw [ofChars?_eq_some_iff]
  simp only [octet?_true_eq_some_iff, List.forall₂_and_left]
  constructor
  · rintro ⟨-, h⟩
    exact ⟨pieces (· == '.') cs, h, (intercalate_pieces '.' cs).symm⟩
  · intro h
    exact ⟨fun n hn => octets_lt hn, h.pieces_dots⟩

/-- An address's text is a spelling of it. -/
theorem spelling_text (a : Ipv4) : a.Spelling a.text.toList :=
  ofChars?_true_eq_some_iff.mp (ofChars?_text true a)

theorem Spelling.slash_not_mem (h : a.Spelling cs) : '/' ∉ cs := by
  intro hslash
  rcases mem_or_mem_pieces (p := (· == '.')) hslash with hdot | ⟨part, hpart, hmem⟩
  · cases hdot
  · obtain ⟨n, -, hnumeral⟩ := exists_numeral_of_mem h.pieces_dots part hpart
    cases hnumeral.isDigit '/' hmem

end Ipv4

namespace Network

/-! ## Networks -/

theorem length?_eq_some_iff {cs : List Char} {n : { n : Nat // n ≤ 32 }} :
    length? cs = some n ↔ Decimal.Numeral 2 n.val cs := by
  unfold length?
  split
  · next hlong => simpa using fun h : Decimal.Numeral 2 n.val cs => absurd h.fits (by omega)
  · next hshort =>
      constructor
      · intro h
        obtain ⟨m, hread, hm⟩ := Option.bind_eq_some_iff.mp h
        split at hm
        · obtain rfl := Option.some.inj hm
          exact Decimal.numeral_iff.mpr ⟨by omega, hread⟩
        · cases hm
      · intro h
        rw [h.digits?_eq, Option.bind_some, dif_pos n.property]

/-- **The texts of a network**: a spelling of its address, and its length in up to two digits. -/
theorem ofChars?_eq_some_iff {cs : List Char} {network : Network} :
    ofChars? cs = some network ↔ ∃ address length, cs = address ++ '/' :: length ∧
      network.address.Spelling address ∧ Decimal.Numeral 2 network.length length := by
  constructor
  · intro h
    obtain ⟨⟨address, length⟩, hcut, h⟩ := Option.bind_eq_some_iff.mp h
    obtain ⟨a, haddress, h⟩ := Option.bind_eq_some_iff.mp h
    obtain ⟨n, hlength, h⟩ := Option.bind_eq_some_iff.mp h
    obtain rfl := Option.some.inj h
    exact ⟨address, length, (cutAt_eq_some_iff.mp hcut).1, Ipv4.ofChars?_true_eq_some_iff.mp haddress,
      length?_eq_some_iff.mp hlength⟩
  · rintro ⟨address, length, rfl, haddress, hlength⟩
    have hcut := cutAt_append haddress.slash_not_mem length
    have hread := length?_eq_some_iff (n := ⟨network.length, network.length_le⟩).mpr hlength
    simp only [ofChars?, hcut, Ipv4.ofChars?_true_eq_some_iff.mpr haddress, hread,
      Option.bind_eq_bind, Option.bind_some]
    rfl

end Network

namespace Ipv4

/-! ## Entries -/

/-- The entries that name an address: its text, or a spelling of it with a length. -/
inductive Entry (a : Ipv4) : List Char → Prop
  | alone : Entry a a.text.toList
  | inNetwork {address length : List Char} {n : Nat} (haddress : a.Spelling address) (hn : n ≤ 32)
      (hlength : Decimal.Numeral 2 n length) : Entry a (address ++ '/' :: length)

variable {a : Ipv4} {cs : List Char} {s : String}

/-- **The entries that name an address** are its text and its spellings with a length, with any
blanks around them. -/
theorem ofEntry?_eq_some_iff : ofEntry? s = some a ↔ a.Entry (trimmed s.toList) := by
  unfold ofEntry?
  dsimp only
  generalize trimmed s.toList = cs
  split
  · next hslash =>
      constructor
      · intro h
        obtain ⟨network, hread, rfl⟩ := Option.map_eq_some_iff.mp h
        obtain ⟨address, length, rfl, haddress, hlength⟩ := Network.ofChars?_eq_some_iff.mp hread
        exact .inNetwork haddress network.length_le hlength
      · intro h
        cases h with
        | alone => exact absurd (by simpa using hslash) (slash_not_mem_text a)
        | @inNetwork address length n haddress hn hlength =>
            have hread : Network.ofChars? (address ++ '/' :: length) = some ⟨a, n, hn⟩ :=
              Network.ofChars?_eq_some_iff.mpr ⟨address, length, rfl, haddress, hlength⟩
            rw [hread, Option.map_some]
  · next hslash =>
      rw [ofChars?_false_eq_some_iff]
      constructor
      · rintro rfl
        exact .alone
      · intro h
        cases h with
        | alone => rfl
        | inNetwork => exact absurd (by simp) hslash

/-- Zeros may stand in front only where a length follows. -/
example : ofEntry? " 010.0.000.3/08" = some (ofOctets 10 0 0 3) ∧ ofEntry? "010.0.000.3" = none := by
  decide +kernel

/-- Blanks around an entry do not count. -/
theorem ofEntry?_among_blanks {left right : String} (hleft : blank left = true)
    (hright : blank right = true) (s : String) : ofEntry? (left ++ s ++ right) = ofEntry? s := by
  have htrim : trimmed (left ++ s ++ right).toList = trimmed s.toList := by
    rw [String.toList_append, String.toList_append]
    exact trimmed_among_blanks (List.all_eq_true.mp hleft) (List.all_eq_true.mp hright) s.toList
  rw [ ofEntry?, ofEntry?, htrim]

/-! ## What spoils an entry -/

theorem Spelling.le_of_mem_pieces (h : a.Spelling cs) {part : List Char}
    (hpart : part ∈ pieces isDivider cs) {n : Nat} (hn : Decimal.digits? part = some n) :
    n ≤ 255 := by
  obtain ⟨m, hm, hnumeral⟩ := exists_numeral_of_mem h.pieces_dividers part hpart
  obtain rfl := Option.some.inj (hnumeral.digits?_eq.symm.trans hn)
  have hlt := octets_lt hm
  omega

/-- The numbers of an entry are octets, or a length. -/
theorem Entry.le_of_mem_pieces (h : a.Entry cs) {part : List Char}
    (hpart : part ∈ pieces isDivider cs) {n : Nat} (hn : Decimal.digits? part = some n) :
    n ≤ 255 := by
  cases h with
  | alone => exact (spelling_text a).le_of_mem_pieces hpart hn
  | @inNetwork address length m haddress hm hlength =>
      rw [pieces_append_cons rfl, List.mem_append,
        pieces_of_none fun c hc => isDivider_of_isDigit (hlength.isDigit c hc),
        List.mem_singleton] at hpart
      rcases hpart with hpart | rfl
      · exact haddress.le_of_mem_pieces hpart hn
      · obtain rfl := Option.some.inj (hlength.digits?_eq.symm.trans hn)
        omega

/-- The number after an entry's slash is a length. -/
theorem Entry.length_le {front part : List Char} (h : a.Entry (front ++ '/' :: part)) {n : Nat}
    (hn : Decimal.digits? part = some n) : n ≤ 32 := by
  generalize hcs : front ++ '/' :: part = cs at h
  have hslash : '/' ∈ cs := hcs ▸ by simp
  cases h with
  | alone => exact absurd hslash (slash_not_mem_text a)
  | @inNetwork address length m haddress hm hlength =>
      have hdigits {cs : List Char} (h : ∀ c ∈ cs, c.isDigit = true) :
          pieces (· == '/') cs = [cs] :=
        pieces_of_none fun c hc => (Bool.or_eq_false_iff.mp (isDivider_of_isDigit (h c hc))).2
      -- neither the length nor the number holds a slash, so that they are the last pieces
      have hpieces := congrArg (pieces (· == '/')) hcs
      rw [pieces_append_cons rfl, pieces_append_cons rfl, hdigits hlength.isDigit,
        hdigits (Decimal.forall_isDigit_of_digits? hn).2] at hpieces
      obtain rfl := List.singleton_inj.mp (List.append_inj_right' hpieces rfl)
      obtain rfl := Option.some.inj (hlength.digits?_eq.symm.trans hn)
      exact hm

/-- **An octet above 255 spoils an entry.** -/
theorem ofEntry?_eq_none_of_octet {part : List Char} {n : Nat}
    (hpart : part ∈ pieces isDivider (trimmed s.toList)) (hn : Decimal.digits? part = some n)
    (hlarge : 255 < n) : ofEntry? s = none := by
  cases h : ofEntry? s with
  | none => rfl
  | some a =>
      have hle := (ofEntry?_eq_some_iff.mp h).le_of_mem_pieces hpart hn
      omega

/-- **A length above 32 spoils an entry.** -/
theorem ofEntry?_eq_none_of_length {front part : List Char} {n : Nat}
    (hs : trimmed s.toList = front ++ '/' :: part) (hn : Decimal.digits? part = some n)
    (hlarge : 32 < n) : ofEntry? s = none := by
  cases h : ofEntry? s with
  | none => rfl
  | some a =>
      have hentry := ofEntry?_eq_some_iff.mp h
      rw [hs] at hentry
      have hle := hentry.length_le hn
      omega

end Ipv4

end OverlayVpn
