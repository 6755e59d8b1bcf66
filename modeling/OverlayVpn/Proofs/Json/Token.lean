import OverlayVpn.Json.Basic
import OverlayVpn.Json.Token
import OverlayVpn.Proofs.Text.Utf8

set_option autoImplicit false

/-! # Tokens of a written document

What is written is read token by token: a quoted string is one token, whatever characters it
holds, and blanks between tokens are passed over. Texts come as characters without gaps. -/

namespace OverlayVpn.Json

open Text

/-! ## Strings -/

/-- The four digits of a control character stand for it. -/
theorem hex4?_control (n : Nat) (h : n < 32) :
    hex4? [some '0', some '0', some (if n < 16 then '0' else '1'), some (Nat.digitChar (n % 16))] =
      some n := by
  have hall : ∀ n < 32, hex4? [some '0', some '0', some (if n < 16 then '0' else '1'),
      some (Nat.digitChar (n % 16))] = some n := by decide
  exact hall n h

theorem letters?_char {c : Char} (hquote : c ≠ '"') (hslash : c ≠ '\\') (hcontrol : ¬c.toNat < 32)
    (rest : List (Option Char)) :
    letters? (some c :: rest) = (letters? rest).map fun (ls, rest) => (.char c :: ls, rest) := by
  rw [letters?]
  · rw [if_neg hquote, if_neg (by simp [hcontrol, hslash])]
  · intro a b c' d rest' _ hc
    exact hslash hc
  · intro e rest' _ hc
    exact hslash hc

theorem letters?_escaped {e c : Char} (he : unescape? (some e) = some c)
    (rest : List (Option Char)) :
    letters? (some '\\' :: some e :: rest) =
      (letters? rest).map fun (ls, rest) => (.char c :: ls, rest) := by
  rw [letters?]
  · rw [he]
    cases letters? rest <;> rfl
  · rintro a b c' d rest' hu
    simp only [Option.some.injEq] at hu
    rw [hu] at he
    simp [unescape?] at he

theorem letters?_control {c : Char} (h : c.toNat < 32) (rest : List (Option Char)) :
    letters? (some '\\' :: some 'u' :: some '0' :: some '0' ::
        some (if c.toNat < 16 then '0' else '1') :: some (Nat.digitChar (c.toNat % 16)) :: rest) =
      (letters? rest).map fun (ls, rest) => (.char c :: ls, rest) := by
  have hletter : letterOf c.toNat = .char c := by
    rw [letterOf, if_neg (by omega), Char.ofNat_toNat]
  rw [letters?, hex4?_control c.toNat h]
  simp only [Option.bind_eq_bind, Option.bind_some, hletter]
  cases letters? rest <;> rfl

/-- **An escaped character is read back**, whatever follows. -/
theorem letters?_escape (c : Char) (rest : List (Option Char)) :
    letters? ((escape c).map some ++ rest) =
      (letters? rest).map fun (ls, rest) => (.char c :: ls, rest) := by
  unfold escape
  split
  · next h => rw [h]; exact letters?_escaped rfl rest
  split
  · next h => rw [h]; exact letters?_escaped rfl rest
  split
  · next h => rw [h]; exact letters?_escaped rfl rest
  split
  · next h => rw [h]; exact letters?_escaped rfl rest
  split
  · next h => rw [h]; exact letters?_escaped rfl rest
  split
  · next h => rw [h]; exact letters?_escaped rfl rest
  split
  · next h => rw [h]; exact letters?_escaped rfl rest
  split
  · next h => exact letters?_control h rest
  · next hquote hslash _ _ _ _ _ hcontrol => exact letters?_char hquote hslash hcontrol rest

theorem letters?_flatMap_escape (cs : List Char) (rest : List (Option Char)) :
    letters? ((cs.flatMap escape).map some ++ some '"' :: rest) = some (cs.map .char, rest) := by
  induction cs with
  | nil =>
      rw [List.flatMap_nil, List.map_nil, List.nil_append, letters?]
      · rfl
      · intro a b c d rest' _ h
        exact absurd h (by decide)
      · intro e rest' _ h
        exact absurd h (by decide)
  | cons c cs ih =>
      rw [List.flatMap_cons, List.map_append, List.append_assoc, letters?_escape, ih]
      rfl

theorem charsOf?_map_char (cs : List Char) : charsOf? (cs.map .char) = some cs := by
  induction cs with
  | nil => rfl
  | cons c cs ih => rw [List.map_cons, charsOf?, ih]; rfl

/-! ## Tokens -/

theorem tokens_nil : tokens [] = [] := by rw [tokens]

theorem tokens_space {c : Char} (h : isSpace c = true) (rest : List (Option Char)) :
    tokens (some c :: rest) = tokens rest := by
  rw [tokens, if_pos h]

theorem tokens_cons {c : Char} {rest more : List (Option Char)} {t : Token}
    (hspace : isSpace c = false) (h : token? c rest = some (t, more)) :
    tokens (some c :: rest) = t :: tokens more := by
  rw [tokens, if_neg (by simp [hspace])]
  split
  · next hnone => rw [h] at hnone; cases hnone
  · next t' more' hsome =>
      rw [h] at hsome
      cases hsome
      rfl

/-- **A quoted string is one token.** -/
theorem tokens_quote (s : String) (rest : List (Option Char)) :
    tokens ((quote s).map some ++ rest) = .string (some s) :: tokens rest := by
  have htoken : token? '"' ((s.toList.flatMap escape).map some ++ some '"' :: rest) =
      some (.string (some s), rest) := by
    simp only [token?, letters?_flatMap_escape, Option.map_some, charsOf?_map_char,
      String.ofList_toList]
  have hsplit : (quote s).map some ++ rest =
      some '"' :: ((s.toList.flatMap escape).map some ++ some '"' :: rest) := by
    simp [quote, List.append_assoc]
  rw [hsplit]
  exact tokens_cons rfl htoken

/-- Blanks in front of a token are passed over. -/
theorem tokens_replicate_blank (n : Nat) (rest : List (Option Char)) :
    tokens ((List.replicate n ' ').map some ++ rest) = tokens rest := by
  induction n with
  | zero => rfl
  | succ n ih => rw [List.replicate_succ, List.map_cons, List.cons_append, tokens_space rfl, ih]

theorem tokens_newLine (depth : Nat) (rest : List (Option Char)) :
    tokens ((newLine depth).map some ++ rest) = tokens rest := by
  rw [newLine, List.map_cons, List.cons_append, tokens_space rfl, tokens_replicate_blank]

/-! ## Bytes -/

/-- The bytes of a text have no gaps. -/
theorem gapped_encodeChars (cs : List Char) : gapped (Utf8.encodeChars cs) = cs.map some := by
  rw [gapped, Utf8.decode_encodeChars, List.map_map]
  rfl

end OverlayVpn.Json
