import OverlayVpn.Text.Utf8

set_option autoImplicit false

/-! # Encoded text is read back

Every character is written as a well-formed sequence. Decoding takes such a sequence off the front
of a byte string as the character it stands for, whatever follows, so that an encoded text is
read back as its characters. What is cut off within a character is no text (`take_encode`). -/

namespace OverlayVpn.Text.Utf8

/-! ## One sequence at the front -/

theorem lead?_two {b : Nat} (h₁ : 0xC2 ≤ b) (h₂ : b < 0xE0) : lead? b = some (1, 0x80, 0xBF) := by
  rw [lead?, if_neg (by omega), if_pos h₂]

/-- A lead byte of three bytes excludes second spellings and surrogates. -/
theorem lead?_three {b b1 : Nat} (h₁ : 0xE0 ≤ b) (h₂ : b < 0xF0) (hb1 : 0x80 ≤ b1 ∧ b1 ≤ 0xBF)
    (hshort : b = 0xE0 → 0xA0 ≤ b1) (hsurrogate : b = 0xED → b1 ≤ 0x9F) :
    ∃ low high, lead? b = some (2, low, high) ∧ low ≤ b1 ∧ b1 ≤ high := by
  unfold lead?
  rw [if_neg (by omega), if_neg (by omega)]
  split
  · exact ⟨_, _, rfl, hshort ‹_›, hb1.2⟩
  · split
    · exact ⟨_, _, rfl, hb1.1, hsurrogate ‹_›⟩
    · exact ⟨_, _, rfl, hb1.1, hb1.2⟩

/-- A lead byte of four bytes excludes second spellings and what lies beyond the characters. -/
theorem lead?_four {b b1 : Nat} (h₁ : 0xF0 ≤ b) (h₂ : b ≤ 0xF4) (hb1 : 0x80 ≤ b1 ∧ b1 ≤ 0xBF)
    (hshort : b = 0xF0 → 0x90 ≤ b1) (hbeyond : b = 0xF4 → b1 ≤ 0x8F) :
    ∃ low high, lead? b = some (3, low, high) ∧ low ≤ b1 ∧ b1 ≤ high := by
  unfold lead?
  rw [if_neg (by omega), if_neg (by omega), if_neg (by omega), if_neg (by omega),
    if_neg (by omega)]
  split
  · exact ⟨_, _, rfl, hshort ‹_›, hb1.2⟩
  · split
    · exact ⟨_, _, rfl, hb1.1, hb1.2⟩
    · rw [if_pos (by omega)]
      exact ⟨_, _, rfl, hb1.1, hbeyond (by omega)⟩

theorem decode_one {b : UInt8} (h : b.toNat < 0x80) (rest : List UInt8) :
    decode (b :: rest) = .char (charOf b.toNat) :: decode rest := by
  rw [decode, if_pos h]

theorem decode_two {b b1 : UInt8} (h₁ : 0xC2 ≤ b.toNat) (h₂ : b.toNat < 0xE0)
    (hb1 : 0x80 ≤ b1.toNat ∧ b1.toNat ≤ 0xBF) (rest : List UInt8) :
    decode (b :: b1 :: rest) =
      .char (charOf (b.toNat % 32 * 64 + b1.toNat % 64)) :: decode rest := by
  rw [decode, if_neg (by omega), lead?_two h₁ h₂]
  simp only
  rw [if_neg (by omega), if_pos trivial]

theorem continues_iff {b : UInt8} : continues b = true ↔ 0x80 ≤ b.toNat ∧ b.toNat ≤ 0xBF := by
  simp [continues]

theorem decode_three {b b1 b2 : UInt8} (h₁ : 0xE0 ≤ b.toNat) (h₂ : b.toNat < 0xF0)
    (hb1 : 0x80 ≤ b1.toNat ∧ b1.toNat ≤ 0xBF) (hb2 : continues b2 = true)
    (hshort : b.toNat = 0xE0 → 0xA0 ≤ b1.toNat) (hsurrogate : b.toNat = 0xED → b1.toNat ≤ 0x9F)
    (rest : List UInt8) :
    decode (b :: b1 :: b2 :: rest) =
      .char (charOf (b.toNat % 16 * 4096 + b1.toNat % 64 * 64 + b2.toNat % 64)) :: decode rest := by
  obtain ⟨low, high, hlead, hlow, hhigh⟩ := lead?_three h₁ h₂ hb1 hshort hsurrogate
  rw [decode, if_neg (by omega), hlead]
  simp only
  rw [if_neg (by omega), if_neg (by decide)]
  simp [hb2]

theorem decode_four {b b1 b2 b3 : UInt8} (h₁ : 0xF0 ≤ b.toNat) (h₂ : b.toNat ≤ 0xF4)
    (hb1 : 0x80 ≤ b1.toNat ∧ b1.toNat ≤ 0xBF) (hb2 : continues b2 = true)
    (hb3 : continues b3 = true) (hshort : b.toNat = 0xF0 → 0x90 ≤ b1.toNat)
    (hbeyond : b.toNat = 0xF4 → b1.toNat ≤ 0x8F) (rest : List UInt8) :
    decode (b :: b1 :: b2 :: b3 :: rest) =
      .char (charOf (b.toNat % 8 * 262144 + b1.toNat % 64 * 4096 + b2.toNat % 64 * 64 +
        b3.toNat % 64)) :: decode rest := by
  obtain ⟨low, high, hlead, hlow, hhigh⟩ := lead?_four h₁ h₂ hb1 hshort hbeyond
  rw [decode, if_neg (by omega), hlead]
  simp only
  rw [if_neg (by omega), if_neg (by decide)]
  simp [hb2, hb3]

/-! ## Characters and texts -/

theorem toNat_ofNat {n : Nat} (h : n < 256) : (UInt8.ofNat n).toNat = n :=
  UInt8.toNat_ofNat_of_lt' h

theorem continues_ofNat (n : Nat) : continues (UInt8.ofNat (0x80 + n % 64)) = true := by
  rw [continues_iff, toNat_ofNat (by omega)]
  omega

/-- A character's number is below the last plane's end and no surrogate's. -/
theorem toNat_char (c : Char) : c.toNat < 0x110000 ∧ ¬(0xD800 ≤ c.toNat ∧ c.toNat ≤ 0xDFFF) := by
  have hvalid := c.valid
  simp only [UInt32.isValidChar, Nat.isValidChar] at hvalid
  show c.val.toNat < 0x110000 ∧ ¬(0xD800 ≤ c.val.toNat ∧ c.val.toNat ≤ 0xDFFF)
  omega

/-- **The bytes of a character are read back as the character.** -/
theorem decode_encodeChar (c : Char) (rest : List UInt8) :
    decode (encodeChar c ++ rest) = .char c :: decode rest := by
  have hchar : charOf c.toNat = c := Char.ofNat_toNat c
  obtain ⟨hmax, hsurrogate⟩ := toNat_char c
  unfold encodeChar
  dsimp only
  generalize c.toNat = n at *
  -- one to four bytes, as the number grows; that it is no surrogate's matters for three
  split
  · rename_i h1
    rw [List.singleton_append, decode_one (by rw [toNat_ofNat (by omega)]; exact h1),
      toNat_ofNat (by omega), hchar]
  · rename_i h1
    split
    · rename_i h2
      have e0 : (UInt8.ofNat (0xC0 + n / 64)).toNat = 0xC0 + n / 64 := toNat_ofNat (by omega)
      have e1 : (UInt8.ofNat (0x80 + n % 64)).toNat = 0x80 + n % 64 := toNat_ofNat (by omega)
      have hval : (0xC0 + n / 64) % 32 * 64 + (0x80 + n % 64) % 64 = n := by omega
      rw [List.cons_append, List.singleton_append,
        decode_two (by omega) (by omega) (by omega), e0, e1, hval, hchar]
    · rename_i h2
      split
      · rename_i h3
        have e0 : (UInt8.ofNat (0xE0 + n / 4096)).toNat = 0xE0 + n / 4096 := toNat_ofNat (by omega)
        have e1 : (UInt8.ofNat (0x80 + n / 64 % 64)).toNat = 0x80 + n / 64 % 64 :=
          toNat_ofNat (by omega)
        have e2 : (UInt8.ofNat (0x80 + n % 64)).toNat = 0x80 + n % 64 := toNat_ofNat (by omega)
        have hval : (0xE0 + n / 4096) % 16 * 4096 + (0x80 + n / 64 % 64) % 64 * 64 +
            (0x80 + n % 64) % 64 = n := by omega
        rw [List.cons_append, List.cons_append, List.singleton_append,
          decode_three (by omega) (by omega) (by omega) (continues_ofNat n) (by omega) (by omega),
          e0, e1, e2, hval, hchar]
      · have e0 : (UInt8.ofNat (0xF0 + n / 262144)).toNat = 0xF0 + n / 262144 :=
          toNat_ofNat (by omega)
        have e1 : (UInt8.ofNat (0x80 + n / 4096 % 64)).toNat = 0x80 + n / 4096 % 64 :=
          toNat_ofNat (by omega)
        have e2 : (UInt8.ofNat (0x80 + n / 64 % 64)).toNat = 0x80 + n / 64 % 64 :=
          toNat_ofNat (by omega)
        have e3 : (UInt8.ofNat (0x80 + n % 64)).toNat = 0x80 + n % 64 := toNat_ofNat (by omega)
        have hval : (0xF0 + n / 262144) % 8 * 262144 + (0x80 + n / 4096 % 64) % 64 * 4096 +
            (0x80 + n / 64 % 64) % 64 * 64 + (0x80 + n % 64) % 64 = n := by omega
        rw [List.cons_append, List.cons_append, List.cons_append, List.singleton_append,
          decode_four (by omega) (by omega) (by omega) (continues_ofNat (n / 64))
            (continues_ofNat n) (by omega) (by omega),
          e0, e1, e2, e3, hval, hchar]

/-- **An encoded text is read back.** -/
theorem decode_encodeChars (cs : List Char) : decode (encodeChars cs) = cs.map .char := by
  induction cs with
  | nil => rw [encodeChars, List.flatMap_nil, decode]; rfl
  | cons c cs ih =>
      rw [encodeChars, List.flatMap_cons, decode_encodeChar]
      exact congrArg _ ih

/-- Texts with the same bytes are the same. -/
theorem encode_inj {s t : String} (h : encode s = encode t) : s = t := by
  have hdecoded := congrArg decode h
  rw [encode, encode, decode_encodeChars, decode_encodeChars] at hdecoded
  have hchars := (List.map_inj_right fun a b hab => Piece.char.inj hab).mp hdecoded
  exact String.toList_inj.mp hchars

/-! ## Bytes that are cut off -/

/-- A byte of a character is the character itself, or none that is a character of its own. -/
theorem toNat_of_mem_encodeChar {c : Char} {b : UInt8} (h : b ∈ encodeChar c) :
    b.toNat = c.toNat ∨ 0x80 ≤ b.toNat := by
  obtain ⟨hmax, -⟩ := toNat_char c
  unfold encodeChar at h
  dsimp only at h
  generalize c.toNat = n at *
  split at h
  · rw [List.mem_singleton.mp h]
    exact Or.inl (toNat_ofNat (by omega))
  · right
    split at h
    · simp only [List.mem_cons, List.not_mem_nil, or_false] at h
      rcases h with rfl | rfl <;> rw [toNat_ofNat (by omega)] <;> omega
    · split at h <;> simp only [List.mem_cons, List.not_mem_nil, or_false] at h
      · rcases h with rfl | rfl | rfl <;> rw [toNat_ofNat (by omega)] <;> omega
      · rcases h with rfl | rfl | rfl | rfl <;> rw [toNat_ofNat (by omega)] <;> omega

/-- A lead byte at the end of the bytes. -/
theorem decode_cut_one {b : UInt8} (hb : 0x80 ≤ b.toNat) {more low high : Nat}
    (hlead : lead? b.toNat = some (more, low, high)) : decode [b] = [.cutOff 1] := by
  rw [decode, if_neg (by omega), hlead]

/-- A lead byte of three or four and the next at the end of the bytes. -/
theorem decode_cut_two {b b1 : UInt8} (hb : 0x80 ≤ b.toNat) {more low high : Nat}
    (hlead : lead? b.toNat = some (more, low, high)) (hmore : more ≠ 1)
    (hlow : low ≤ b1.toNat) (hhigh : b1.toNat ≤ high) : decode [b, b1] = [.cutOff 2] := by
  rw [decode, if_neg (by omega), hlead]
  simp only
  rw [if_neg (by omega), if_neg hmore]

/-- A lead byte of four and the next two at the end of the bytes. -/
theorem decode_cut_three {b b1 b2 : UInt8} (hb : 0x80 ≤ b.toNat) {low high : Nat}
    (hlead : lead? b.toNat = some (3, low, high)) (hlow : low ≤ b1.toNat)
    (hhigh : b1.toNat ≤ high) (hb2 : continues b2 = true) : decode [b, b1, b2] = [.cutOff 3] := by
  rw [decode, if_neg (by omega), hlead]
  simp only
  rw [if_neg (by omega), if_neg (by decide)]
  simp [hb2]

/-- **A character of which bytes are missing at its end is read as cut off.** -/
theorem decode_take_encodeChar (c : Char) {k : Nat} (hpos : 0 < k)
    (hk : k < (encodeChar c).length) : decode ((encodeChar c).take k) = [.cutOff k] := by
  obtain ⟨hmax, hsurrogate⟩ := toNat_char c
  unfold encodeChar at hk ⊢
  dsimp only at hk ⊢
  generalize c.toNat = n at *
  split at hk
  · simp only [List.length_singleton] at hk
    omega
  · rename_i h1
    rw [if_neg h1]
    split at hk
    · rename_i h2
      have e0 : (UInt8.ofNat (0xC0 + n / 64)).toNat = 0xC0 + n / 64 := toNat_ofNat (by omega)
      simp only [List.length_cons, List.length_nil] at hk
      obtain rfl : k = 1 := by omega
      rw [if_pos h2]
      exact decode_cut_one (by omega) (lead?_two (by omega) (by omega))
    · rename_i h2
      rw [if_neg h2]
      split at hk
      · rename_i h3
        have e0 : (UInt8.ofNat (0xE0 + n / 4096)).toNat = 0xE0 + n / 4096 := toNat_ofNat (by omega)
        have e1 : (UInt8.ofNat (0x80 + n / 64 % 64)).toNat = 0x80 + n / 64 % 64 :=
          toNat_ofNat (by omega)
        obtain ⟨low, high, hlead, hlow, hhigh⟩ := @lead?_three
          (UInt8.ofNat (0xE0 + n / 4096)).toNat (UInt8.ofNat (0x80 + n / 64 % 64)).toNat (by omega) (by omega) (by omega) (by omega) (by omega)
        simp only [List.length_cons, List.length_nil] at hk
        rw [if_pos h3]
        obtain rfl | rfl : k = 1 ∨ k = 2 := by omega
        · exact decode_cut_one (by omega) hlead
        · exact decode_cut_two (by omega) hlead (by decide) hlow hhigh
      · rename_i h3
        have e0 : (UInt8.ofNat (0xF0 + n / 262144)).toNat = 0xF0 + n / 262144 :=
          toNat_ofNat (by omega)
        have e1 : (UInt8.ofNat (0x80 + n / 4096 % 64)).toNat = 0x80 + n / 4096 % 64 :=
          toNat_ofNat (by omega)
        obtain ⟨low, high, hlead, hlow, hhigh⟩ := @lead?_four
          (UInt8.ofNat (0xF0 + n / 262144)).toNat (UInt8.ofNat (0x80 + n / 4096 % 64)).toNat
          (by omega) (by omega) (by omega) (by omega) (by omega)
        simp only [List.length_cons, List.length_nil] at hk
        rw [if_neg h3]
        obtain rfl | rfl | rfl : k = 1 ∨ k = 2 ∨ k = 3 := by omega
        · exact decode_cut_one (by omega) hlead
        · exact decode_cut_two (by omega) hlead (by decide) hlow hhigh
        · exact decode_cut_three (by omega) hlead hlow hhigh (continues_ofNat (n / 64))


theorem charsFrom_map_char (offset : Nat) (cs : List Char) :
    charsFrom offset (cs.map .char) = .ok cs := by
  induction cs generalizing offset with
  | nil => rfl
  | cons c cs ih =>
      rw [List.map_cons, charsFrom, ih]
      rfl

theorem charsFrom_cutOff (offset : Nat) (cs : List Char) (width : Nat) :
    ∃ fault, charsFrom offset (cs.map .char ++ [.cutOff width]) = .error fault := by
  induction cs generalizing offset with
  | nil => exact ⟨_, rfl⟩
  | cons c cs ih =>
      obtain ⟨fault, hfault⟩ := ih (offset + (encodeChar c).length)
      exact ⟨fault, by rw [List.map_cons, List.cons_append, charsFrom, hfault]; rfl⟩

theorem read_encode (s : String) : read (encode s) = .ok s := by
  rw [read, encode, decode_encodeChars, charsFrom_map_char]
  simp [Except.map]

/-- The first bytes of characters are those of the first characters, or one more is cut off. -/
theorem take_encodeChars (cs : List Char) (k : Nat) :
    ∃ front, front <+: cs ∧
      ((encodeChars cs).take k = encodeChars front ∨
        ∃ width, decode ((encodeChars cs).take k) = front.map .char ++ [.cutOff width]) := by
  induction cs generalizing k with
  | nil => exact ⟨[], List.prefix_rfl, Or.inl (by simp [encodeChars])⟩
  | cons c cs ih =>
      rw [encodeChars, List.flatMap_cons]
      rcases Nat.lt_or_ge k (encodeChar c).length with hk | hk
      · rw [List.take_append_of_le_length (by omega)]
        rcases Nat.eq_zero_or_pos k with rfl | hpos
        · exact ⟨[], List.nil_prefix, Or.inl (by simp [encodeChars])⟩
        · exact ⟨[], List.nil_prefix, Or.inr ⟨k, by simp [decode_take_encodeChar c hpos hk]⟩⟩
      · obtain ⟨front, hfront, hbytes⟩ := ih (k - (encodeChar c).length)
        refine ⟨c :: front, List.cons_prefix_cons.mpr ⟨rfl, hfront⟩, ?_⟩
        rw [List.take_append, List.take_of_length_le hk]
        rcases hbytes with hwhole | ⟨width, hcut⟩
        · exact Or.inl (congrArg (encodeChar c ++ ·) hwhole)
        · exact Or.inr ⟨width, (decode_encodeChar c _).trans (congrArg (Piece.char c :: ·) hcut)⟩

/-- **The first bytes of a text are those of its first characters, or no text.** -/
theorem take_encode (s : String) (k : Nat) :
    (∃ front : List Char, front <+: s.toList ∧
      (encode s).take k = encode (String.ofList front)) ∨
    ∃ fault, read ((encode s).take k) = .error fault := by
  obtain ⟨front, hfront, hwhole | ⟨width, hcut⟩⟩ := take_encodeChars s.toList k
  · exact Or.inl ⟨front, hfront, by rw [encode, encode, hwhole, String.toList_ofList]⟩
  · obtain ⟨fault, hfault⟩ := charsFrom_cutOff 0 front width
    refine Or.inr ⟨fault, ?_⟩
    rw [read, encode, hcut, hfault]
    rfl

end OverlayVpn.Text.Utf8
