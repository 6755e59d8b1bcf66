import OverlayVpn.Key
import OverlayVpn.Proofs.Key.Base64
import OverlayVpn.Proofs.Text.Blank
import OverlayVpn.Proofs.Text.Utf8

set_option autoImplicit false

/-! # Texts and keys

A text stands for a key exactly when it is the key's text in base64, but for blanks around it
(`read_eq_ok_iff`); a text that stands for more or fewer bytes is told from one that stands for none
(`read_eq_length_iff`). Two texts that stand for one key therefore differ in the blanks around them
at most (`trim_eq_of_read`). In hexadecimal a key has one spelling too, from which its bytes are read
back (`bytesOfHex?_hexOf`), so that two keys that an engine cannot tell apart are the same
(`hex_inj`). -/

namespace OverlayVpn

/-! ## Base64 as text -/

namespace Base64

/-- A symbol is one ASCII character, and no blank. -/
theorem ascii_of_mem_symbols {bytes : List UInt8} {b : UInt8} (h : b ∈ symbols bytes) :
    Text.Utf8.encodeChar (Char.ofUInt8 b) = [b] ∧ Text.isBlank (Char.ofUInt8 b) = false := by
  have hall : ∀ v < 64, Text.Utf8.encodeChar (Char.ofUInt8 (symbol v)) = [symbol v] ∧
      Text.isBlank (Char.ofUInt8 (symbol v)) = false := by decide +kernel
  rcases mem_symbols h with ⟨v, hv, rfl⟩ | rfl
  · exact hall v hv
  · decide +kernel

/-- The bytes of a text in base64 are its symbols. -/
theorem utf8_encode (bytes : List UInt8) : Text.Utf8.encode (encode bytes) = symbols bytes := by
  have hall : ∀ bs : List UInt8, (∀ b ∈ bs, b ∈ symbols bytes) →
      Text.Utf8.encodeChars (bs.map Char.ofUInt8) = bs := by
    intro bs h
    induction bs with
    | nil => rfl
    | cons b bs ih =>
        obtain ⟨hb, hbs⟩ := List.forall_mem_cons.mp h
        have htail := ih hbs
        rw [Text.Utf8.encodeChars] at htail ⊢
        rw [List.map_cons, List.flatMap_cons, (ascii_of_mem_symbols hb).1, htail]
        rfl
  rw [Text.Utf8.encode, encode, String.toList_ofList]
  exact hall (symbols bytes) fun b hb => hb

/-- A text is read as the bytes that it is the text of. -/
theorem decode_utf8_eq_ok_iff {s : String} {bytes : List UInt8} :
    decode (Text.Utf8.encode s) = .ok bytes ↔ s = encode bytes := by
  rw [decode_eq_ok_iff, ← utf8_encode]
  exact ⟨Text.Utf8.encode_inj, congrArg _⟩

theorem trim_encode (bytes : List UInt8) : Text.trim (encode bytes) = encode bytes := by
  rw [Text.trim, Text.trimmed_of_forall, String.ofList_toList]
  intro c hc
  rw [encode, String.toList_ofList] at hc
  obtain ⟨b, hb, rfl⟩ := List.mem_map.mp hc
  exact (ascii_of_mem_symbols hb).2

end Base64

namespace Key

/-! ## Base64 -/

theorem decode_of_read {text : String} {key : Key} (h : read text = .ok key) :
    Base64.decode (Text.Utf8.encode (Text.trim text)) = .ok key.bytes := by
  unfold read at h
  split at h
  · cases h
  · next bytes hdecode =>
      split at h
      · rw [hdecode, ← Except.ok.inj h]
      · cases h

/-- **A text stands for a key exactly when it is the key's text, but for blanks around it.** -/
theorem read_eq_ok_iff {s : String} {key : Key} : read s = .ok key ↔ Text.trim s = key.text := by
  constructor
  · exact fun h => Base64.decode_utf8_eq_ok_iff.mp (decode_of_read h)
  · intro h
    have hdecode := Base64.decode_utf8_eq_ok_iff.mpr h
    simp only [read, hdecode, key.length_eq, dif_pos]

/-- **The texts of another length**: base64 of as many bytes. -/
theorem read_eq_length_iff {s : String} {n : Nat} :
    read s = .error (.length n) ↔
      ∃ bytes, Text.trim s = Base64.encode bytes ∧ bytes.length = n ∧ n ≠ 32 := by
  constructor
  · intro h
    unfold read at h
    split at h
    · cases h
    · next bytes hdecode =>
        split at h
        · cases h
        · next hlength =>
            obtain rfl := Fault.length.inj (Except.error.inj h)
            exact ⟨bytes, Base64.decode_utf8_eq_ok_iff.mp hdecode, rfl, hlength⟩
  · rintro ⟨bytes, hbytes, rfl, hlength⟩
    have hdecode := Base64.decode_utf8_eq_ok_iff.mpr hbytes
    simp only [read, hdecode, hlength, dif_neg, not_false_eq_true]

/-- **The texts that are no base64.** -/
theorem exists_encoding_iff {s : String} :
    (∃ fault, read s = .error (.encoding fault)) ↔ ∀ bytes, Text.trim s ≠ Base64.encode bytes := by
  constructor
  · rintro ⟨fault, h⟩ bytes hbytes
    have hdecode := Base64.decode_utf8_eq_ok_iff.mpr hbytes
    simp only [read, hdecode] at h
    split at h <;> cases h
  · intro h
    cases hdecode : Base64.decode (Text.Utf8.encode (Text.trim s)) with
    | error fault => exact ⟨fault, by simp only [read, hdecode]⟩
    | ok bytes => exact absurd (Base64.decode_utf8_eq_ok_iff.mp hdecode) (h bytes)

/-- **Texts of one key differ in the blanks around them at most.** -/
theorem trim_eq_of_read {s t : String} {key : Key} (hs : read s = .ok key) (ht : read t = .ok key) :
    Text.trim s = Text.trim t :=
  (read_eq_ok_iff.mp hs).trans (read_eq_ok_iff.mp ht).symm

theorem exists_of_check {text : String} (h : check text = .ok ()) : ∃ key, read text = .ok key := by
  cases hread : read text with
  | ok key => exact ⟨key, rfl⟩
  | error fault =>
      rw [check, hread] at h
      cases h

/-! ## Hexadecimal -/

/-- The value of a hexadecimal digit, of either case. -/
def hexValue? (c : Char) : Option Nat :=
  if '0' ≤ c ∧ c ≤ '9' then some (c.toNat - 48)
  else if 'a' ≤ c ∧ c ≤ 'f' then some (c.toNat - 87)
  else if 'A' ≤ c ∧ c ≤ 'F' then some (c.toNat - 55)
  else none

/-- The bytes that hexadecimal digits stand for, two digits a byte. -/
def bytesOfHex? : List Char → Option (List UInt8)
  | [] => some []
  | [_] => none
  | high :: low :: rest => do
    let high ← hexValue? high
    let low ← hexValue? low
    let bytes ← bytesOfHex? rest
    return UInt8.ofNat (high * 16 + low) :: bytes

theorem hexValue?_hexDigit {n : Nat} (h : n < 16) : hexValue? (hexDigit n) = some n := by
  have hall : ∀ n < 16, hexValue? (hexDigit n) = some n := by decide
  exact hall n h

/-- **The bytes are read back from their hexadecimal digits.** -/
theorem bytesOfHex?_hexOf (bytes : List UInt8) : bytesOfHex? (hexOf bytes) = some bytes := by
  induction bytes with
  | nil => rfl
  | cons b bytes ih =>
      have hb : b.toNat < 256 := b.toNat_lt
      have hbyte : b.toNat / 16 * 16 + b.toNat % 16 = b.toNat := Nat.div_add_mod' b.toNat 16
      have hdigits : hexOf (b :: bytes) =
          hexDigit (b.toNat / 16) :: hexDigit (b.toNat % 16) :: hexOf bytes := rfl
      rw [hdigits, bytesOfHex?, hexValue?_hexDigit (by omega), hexValue?_hexDigit (by omega), ih]
      simp only [Option.bind_eq_bind, Option.bind_some, hbyte, UInt8.ofNat_toNat]
      rfl

theorem hexOf_inj {a b : List UInt8} (h : hexOf a = hexOf b) : a = b := by
  have hread := congrArg bytesOfHex? h
  rw [bytesOfHex?_hexOf, bytesOfHex?_hexOf] at hread
  exact Option.some.inj hread

theorem length_hexOf (bytes : List UInt8) : (hexOf bytes).length = 2 * bytes.length := by
  induction bytes with
  | nil => rfl
  | cons b bytes ih =>
      calc (hexOf (b :: bytes)).length
          = 2 + (hexOf bytes).length := by
            rw [hexOf, List.flatMap_cons, List.length_append]
            rfl
        _ = 2 * (b :: bytes).length := by
            rw [ih, List.length_cons]
            omega

theorem length_hex (key : Key) : key.hex.length = 64 := by
  rw [hex, String.length_ofList, length_hexOf, key.length_eq]

/-- A key is written in digits of lower case. -/
theorem mem_hex {key : Key} {c : Char} (h : c ∈ key.hex.toList) : c ∈ "0123456789abcdef".toList := by
  have hdigit : ∀ n < 16, hexDigit n ∈ "0123456789abcdef".toList := by decide
  simp only [hex, String.toList_ofList, hexOf, List.mem_flatMap] at h
  obtain ⟨b, -, hb⟩ := h
  have hlt : b.toNat < 256 := b.toNat_lt
  rcases List.mem_cons.mp hb with rfl | hb
  · exact hdigit (b.toNat / 16) (by omega)
  · obtain rfl := List.mem_singleton.mp hb
    exact hdigit (b.toNat % 16) (by omega)

/-- **Keys with the same hexadecimal digits are the same.** -/
theorem hex_inj {a b : Key} (h : a.hex = b.hex) : a = b := by
  have hdigits : hexOf a.bytes = hexOf b.bytes := String.ofList_inj.mp h
  cases a
  cases b
  simp only [Key.mk.injEq]
  exact hexOf_inj hdigits

/-! ## Both spellings -/

/-- **Texts and hexadecimal digits are exact.** A text stands for a key exactly when it is, but for
blanks around it, the key's text. The texts that stand for another number of bytes are told by that
number, and all others are no base64. A key's text is read back, and the text of a key that was read
is the trimmed text. Two texts of keys give the same 64 digits of lower case exactly when they are
the same without the blanks around them, and the digits are read back as the key's bytes. -/
theorem codec_exact :
    (∀ s key, read s = .ok key ↔ Text.trim s = key.text) ∧
    (∀ s n, read s = .error (.length n) ↔
      ∃ bytes, Text.trim s = Base64.encode bytes ∧ bytes.length = n ∧ n ≠ 32) ∧
    (∀ s, (∃ fault, read s = .error (.encoding fault)) ↔
      ∀ bytes, Text.trim s ≠ Base64.encode bytes) ∧
    (∀ key, read key.text = .ok key) ∧
    (∀ s key, read s = .ok key → key.text = Text.trim s) ∧
    (∀ s t a b, read s = .ok a → read t = .ok b →
      (a.hex = b.hex ↔ Text.trim s = Text.trim t)) ∧
    ∀ key : Key, key.hex.length = 64 ∧ (∀ c ∈ key.hex.toList, c ∈ "0123456789abcdef".toList) ∧
      bytesOfHex? key.hex.toList = some key.bytes := by
  refine ⟨fun s key => read_eq_ok_iff, fun s n => read_eq_length_iff,
    fun s => exists_encoding_iff, fun key => ?_, fun s key h => (read_eq_ok_iff.mp h).symm, ?_, ?_⟩
  · exact read_eq_ok_iff.mpr (Base64.trim_encode key.bytes)
  · intro s t a b hs ht
    constructor
    · intro hhex
      exact trim_eq_of_read hs (hex_inj hhex ▸ ht)
    · intro htrim
      have hsame : read s = .ok b := read_eq_ok_iff.mpr (htrim.trans (read_eq_ok_iff.mp ht))
      rw [Except.ok.inj (hs.symm.trans hsame)]
  · intro key
    refine ⟨length_hex key, fun c => mem_hex, ?_⟩
    rw [hex, String.toList_ofList]
    exact bytesOfHex?_hexOf key.bytes

/-- A key with blanks around its text, one of them a wide one. -/
theorem codec_exact_of_blanks :
    let s := "\u3000q6urq6urq6urq6urq6urq6urq6urq6urq6urq6urq6s=\n"
    let key : Key := ⟨List.replicate 32 0xab, by decide⟩
    read s = .ok key ∧ key.text = Text.trim s ∧ read key.text = .ok key ∧
      (key.hex = key.hex ↔ Text.trim s = Text.trim key.text) ∧
      bytesOfHex? key.hex.toList = some key.bytes := by
  intro s key
  obtain ⟨hread, -, -, hback, htext, hsame, hhex⟩ := codec_exact
  have hs : read s = .ok key := (hread s key).mpr (by decide +kernel)
  exact ⟨hs, htext s key hs, hback key, hsame s key.text key key hs (hback key), (hhex key).2.2⟩

end Key

end OverlayVpn
