import OverlayVpn.Net.Socket
import OverlayVpn.Proofs.Net.Ipv4

set_option autoImplicit false

/-! # Written addresses have no blanks

The text of an IPv6 address is made of hexadecimal digits, colons and dots, and that of a socket
address of such texts, brackets and a per cent sign. So neither has a blank, let alone a line
break. A text that ends in a port is cut at its last colon (`Socket.cutLastColon_eq_some_iff`). -/

namespace OverlayVpn

open Text

/-- A text has no blanks. -/
def Text.Solid (s : String) : Prop := ∀ c ∈ s.toList, isBlank c = false

namespace Text

instance (s : String) : Decidable (Solid s) :=
  decidable_of_iff (s.toList.all fun c => ! isBlank c) (by simp [Solid])

theorem Solid.append {s t : String} (hs : Solid s) (ht : Solid t) : Solid (s ++ t) := by
  intro c hc
  rw [String.toList_append] at hc
  rcases List.mem_append.mp hc with h | h
  · exact hs c h
  · exact ht c h

theorem Solid.join {separator : String} {texts : List String} (hseparator : Solid separator)
    (h : ∀ t ∈ texts, Solid t) : Solid (join separator texts) := by
  induction texts with
  | nil =>
      intro c hc
      cases hc
  | cons t texts ih =>
      have ht := h t List.mem_cons_self
      cases texts with
      | nil => simpa [Text.join] using ht
      | cons u texts =>
          have hrest := ih fun t ht => h t (List.mem_cons_of_mem _ ht)
          have happend := (ht.append hseparator).append hrest
          simpa only [Text.join, String.intercalate_cons_cons, String.append_assoc] using happend

theorem solid_render (n : Nat) : Solid (Decimal.render n) := by
  intro c hc
  rw [Decimal.toList_render] at hc
  exact isBlank_of_isDigit (Decimal.isDigit_of_mem_digits hc)

theorem isBlank_digitChar {n : Nat} (h : n < 16) : isBlank n.digitChar = false := by
  have hall : ∀ n < 16, isBlank n.digitChar = false := by decide
  exact hall n h

/-- Hexadecimal digits are no blanks. -/
theorem isBlank_of_mem_toDigits (n : Nat) : ∀ c ∈ Nat.toDigits 16 n, isBlank c = false := by
  induction n using Nat.strongRecOn with
  | ind n ih =>
      intro c hc
      rw [Nat.toDigits_eq_if (by decide)] at hc
      split at hc
      · next hlt =>
          rw [List.mem_singleton.mp hc]
          exact isBlank_digitChar hlt
      · rcases List.mem_append.mp hc with h | h
        · exact ih (n / 16) (by omega) c h
        · rw [List.mem_singleton.mp h]
          exact isBlank_digitChar (Nat.mod_lt n (by decide))

end Text

theorem Ipv4.solid_text (a : Ipv4) : Solid a.text := fun _ => isBlank_of_mem_text

theorem Ipv6.solid_colonText (gs : List UInt16) : Solid (colonText gs) := by
  refine Solid.join (by decide) fun t ht => ?_
  obtain ⟨g, -, rfl⟩ := List.mem_map.mp ht
  intro c hc
  rw [groupText, String.toList_ofList] at hc
  exact isBlank_of_mem_toDigits g.toNat c hc

/-- **An IPv6 address's text has no blanks.** -/
theorem Ipv6.solid_text (a : Ipv6) : Solid a.text := by
  unfold Ipv6.text
  split
  · exact Solid.append (by decide) (Ipv4.solid_text _)
  · dsimp only
    split
    · exact ((solid_colonText _).append (by decide)).append (solid_colonText _)
    · exact solid_colonText _

/-- **A socket address's text has no blanks.** -/
theorem Socket.solid_text (s : Socket) : Solid s.text := by
  unfold Socket.text
  dsimp only
  split
  · next a _ => exact ((Ipv4.solid_text a).append (by decide)).append (solid_render _)
  · next a _ =>
      have hscope : Solid (if s.scope = 0 then "" else "%" ++ Decimal.render s.scope.toNat) := by
        split
        · decide
        · exact Solid.append (by decide) (solid_render _)
      exact ((((Solid.append (by decide) (Ipv6.solid_text a)).append hscope).append
        (by decide)).append (solid_render _))

/-- What it takes for a text to be cut at its last colon. -/
theorem Socket.cutLastColon_eq_some_iff {cs front back : List Char} :
    cutLastColon cs = some (front, back) ↔ cs = front ++ ':' :: back ∧ ':' ∉ back := by
  unfold cutLastColon
  rw [Option.map_eq_some_iff]
  constructor
  · rintro ⟨⟨after, before⟩, hcut, heq⟩
    obtain ⟨rfl, rfl⟩ := Prod.mk.inj heq
    obtain ⟨hcs, hnone⟩ := cutAt_eq_some_iff.mp hcut
    refine ⟨?_, by simpa using hnone⟩
    rw [← List.reverse_reverse cs, hcs]
    simp
  · rintro ⟨rfl, hnone⟩
    refine ⟨(back.reverse, front.reverse), cutAt_eq_some_iff.mpr ⟨?_, by simpa using hnone⟩, ?_⟩
    · simp
    · simp only [List.reverse_reverse]

end OverlayVpn
