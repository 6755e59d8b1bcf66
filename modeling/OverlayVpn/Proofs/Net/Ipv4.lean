import OverlayVpn.Net.Ipv4
import OverlayVpn.Proofs.Text.Blank
import OverlayVpn.Proofs.Text.Decimal

set_option autoImplicit false

/-! # Written addresses are read back

An address is written as four octets, and a network as its address and its length. Both texts are
read back, and an entry that spells an address alone or with a length names that address. -/

namespace OverlayVpn

open Text

namespace Ipv4

/-! ## Octets -/

theorem octets_lt {a : Ipv4} {n : Nat} (h : n ∈ a.octets) : n < 256 := by
  have ha : a.toNat < UInt32.size := a.toNat_lt
  simp only [UInt32.size] at ha
  simp only [octets, List.mem_cons, List.not_mem_nil, or_false] at h
  omega

/-- An address is made of its octets. -/
theorem ofOctets_octets (a : Ipv4) :
    ofOctets (a.toNat / 16777216) (a.toNat / 65536 % 256) (a.toNat / 256 % 256) (a.toNat % 256) =
      a := by
  have hsum : ((a.toNat / 16777216 * 256 + a.toNat / 65536 % 256) * 256 + a.toNat / 256 % 256) *
      256 + a.toNat % 256 = a.toNat := by omega
  rw [ofOctets, hsum, ofNat_toNat]

/-- An octet is written without zeros in front, so that it is read back whether these are allowed
or not. -/
theorem octet?_digits (leadingZeros : Bool) {n : Nat} (h : n < 256) :
    octet? leadingZeros (Decimal.digits n) = some n := by
  have hall : ∀ b : Bool, ∀ n < 256, octet? b (Decimal.digits n) = some n := by decide +kernel
  exact hall leadingZeros n h

/-! ## Addresses -/

theorem toList_text (a : Ipv4) :
    a.text.toList =
      Decimal.digits (a.toNat / 16777216) ++ '.' :: (Decimal.digits (a.toNat / 65536 % 256) ++
        '.' :: (Decimal.digits (a.toNat / 256 % 256) ++ '.' :: Decimal.digits (a.toNat % 256))) := by
  simp [text, octets, join, List.append_assoc]

theorem isDot_digits {n : Nat} {c : Char} (h : c ∈ Decimal.digits n) : (c == '.') = false := by
  have hne : c ≠ '.' := by
    rintro rfl
    exact not_mem_of_isDigit (fun _ => Decimal.isDigit_of_mem_digits) rfl h
  simpa using hne

theorem pieces_text (a : Ipv4) :
    pieces (· == '.') a.text.toList =
      [Decimal.digits (a.toNat / 16777216), Decimal.digits (a.toNat / 65536 % 256),
        Decimal.digits (a.toNat / 256 % 256), Decimal.digits (a.toNat % 256)] := by
  rw [toList_text, pieces_append (fun _ => isDot_digits) rfl, pieces_append (fun _ => isDot_digits) rfl,
    pieces_append (fun _ => isDot_digits) rfl, pieces_of_none (fun _ => isDot_digits)]

/-- **An address's text is read back.** -/
theorem ofChars?_text (leadingZeros : Bool) (a : Ipv4) :
    ofChars? leadingZeros a.text.toList = some a := by
  have h1 := octet?_digits leadingZeros (octets_lt (a := a) (n := a.toNat / 16777216) (by simp [octets]))
  have h2 := octet?_digits leadingZeros (octets_lt (a := a) (n := a.toNat / 65536 % 256) (by simp [octets]))
  have h3 := octet?_digits leadingZeros (octets_lt (a := a) (n := a.toNat / 256 % 256) (by simp [octets]))
  have h4 := octet?_digits leadingZeros (octets_lt (a := a) (n := a.toNat % 256) (by simp [octets]))
  simp only [ofChars?, pieces_text, h1, h2, h3, h4, Option.bind_eq_bind, Option.bind_some]
  exact congrArg some (ofOctets_octets a)

/-- An address is written with digits and dots. -/
theorem mem_text {a : Ipv4} {c : Char} (h : c ∈ a.text.toList) : c.isDigit = true ∨ c = '.' := by
  rw [toList_text] at h
  simp only [List.mem_append, List.mem_cons] at h
  rcases h with h | rfl | h | rfl | h | rfl | h
  all_goals first
    | exact Or.inl (Decimal.isDigit_of_mem_digits h)
    | exact Or.inr rfl

theorem isBlank_of_mem_text {a : Ipv4} {c : Char} (h : c ∈ a.text.toList) : isBlank c = false := by
  rcases mem_text h with h | rfl
  · exact isBlank_of_isDigit h
  · rfl

theorem slash_not_mem_text (a : Ipv4) : '/' ∉ a.text.toList := by
  intro h
  rcases mem_text h with h | h <;> simp at h

/-- An entry that is an address's text names the address. -/
theorem ofEntry?_text (a : Ipv4) : ofEntry? a.text = some a := by
  have htrim : trimmed a.text.toList = a.text.toList := trimmed_of_forall fun _ => isBlank_of_mem_text
  have hslash : a.text.toList.contains '/' = false := by simpa using slash_not_mem_text a
  simp only [ ofEntry?, htrim, hslash, Bool.false_eq_true, if_false, ofChars?_text]

end Ipv4

namespace Network

/-! ## Networks -/

theorem toList_text (n : Network) :
    n.text.toList = n.address.text.toList ++ '/' :: Decimal.digits n.length := by
  simp [text]

theorem length?_digits (n : Network) :
    length? (Decimal.digits n.length) = some ⟨n.length, n.length_le⟩ := by
  have hlen : ¬2 < (Decimal.digits n.length).length := by
    have := Decimal.length_digits_le (k := 2) (by decide) (n := n.length) (by have := n.length_le; omega)
    omega
  rw [length?, if_neg hlen, Decimal.digits?_digits, Option.bind_some, dif_pos n.length_le]

/-- **A network's text is read back.** -/
theorem ofChars?_text (n : Network) : ofChars? n.text.toList = some n := by
  rw [toList_text, ofChars?, cutAt_append (Ipv4.slash_not_mem_text n.address)]
  simp only [Option.bind_eq_bind, Option.bind_some, Ipv4.ofChars?_text, length?_digits]
  rfl

theorem isBlank_of_mem_text {n : Network} {c : Char} (h : c ∈ n.text.toList) :
    isBlank c = false := by
  rw [toList_text, List.mem_append, List.mem_cons] at h
  rcases h with h | rfl | h
  · exact Ipv4.isBlank_of_mem_text h
  · rfl
  · exact isBlank_of_isDigit (Decimal.isDigit_of_mem_digits h)

/-- A network's text is not trimmed. -/
theorem trimmed_text (n : Network) : trimmed n.text.toList = n.text.toList :=
  trimmed_of_forall fun _ => isBlank_of_mem_text

/-- An entry that is a network's text names the network's address. -/
theorem ofEntry?_text (n : Network) : Ipv4.ofEntry? n.text = some n.address := by
  have hslash : n.text.toList.contains '/' = true := by simp [toList_text]
  simp only [ Ipv4.ofEntry?, trimmed_text, hslash, if_true, ofChars?_text, Option.map_some]

@[simp] theorem address_host (a : Ipv4) : (host a).address = a := rfl

/-- A single address as a network names the address. -/
theorem ofEntry?_host (a : Ipv4) : Ipv4.ofEntry? (host a).text = some a := ofEntry?_text (host a)

/-- Two addresses with one text are one address. -/
theorem host_text_inj {a b : Ipv4} (h : (host a).text = (host b).text) : a = b := by
  have hab := congrArg Ipv4.ofEntry? h
  rw [ofEntry?_host, ofEntry?_host] at hab
  exact Option.some.inj hab

end Network

end OverlayVpn
