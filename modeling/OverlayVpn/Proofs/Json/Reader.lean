import OverlayVpn.Json.Record
import OverlayVpn.Proofs.Json.Token

set_option autoImplicit false

/-! # A written document is read back

A document without numbers is written as a list of tokens with blanks between them (`tokensOf`).
The reader takes these tokens off the front of a list as the document that they spell, provided
that it may take twice as many steps as there are tokens. Together this gives
`ofBytes_encodeChars`: the bytes of a document hold that document and nothing else. -/

namespace OverlayVpn.Json

open Text

/-! ## The tokens of a tree -/

mutual

/-- Whether a value is written as tokens that spell it: it is whole and holds no numbers, whose
end depends on what follows. -/
def readable : Json → Bool
  | .null | .bool _ | .string _ => true
  | .number _ | .garbled | .broken => false
  | .array items => readableItems items
  | .object members => readableMembers members

/-- Whether the items of a list are written as tokens that spell them. -/
def readableItems : JsonItems → Bool
  | .nil => true
  | .cut => false
  | .cons head tail => readable head && readableItems tail

/-- Whether the members of an object are written as tokens that spell them. -/
def readableMembers : JsonMembers → Bool
  | .nil => true
  | .cut => false
  | .cons key value tail => key.isSome && readable value && readableMembers tail

end

/-- The comma in front of an element, unless it is the first. -/
def separator (isFirst : Bool) : List Token := if isFirst then [] else [.comma]

mutual

/-- The tokens of a value. -/
def tokensOf : Json → List Token
  | .null => [.null]
  | .bool value => [.bool value]
  | .number spelling => [.number spelling]
  | .string value => [.string (some value)]
  | .garbled | .broken => []
  | .array items => .openBracket :: itemTokens true items
  | .object members => .openBrace :: memberTokens true members

/-- The tokens of the items of a list, and of its end. -/
def itemTokens (isFirst : Bool) : JsonItems → List Token
  | .nil => [.closeBracket]
  | .cut => []
  | .cons head tail => separator isFirst ++ tokensOf head ++ itemTokens false tail

/-- The tokens of the members of an object, and of its end. -/
def memberTokens (isFirst : Bool) : JsonMembers → List Token
  | .nil => [.closeBrace]
  | .cut => []
  | .cons key value tail =>
    separator isFirst ++ [.string (some (key.getD "")), .colon] ++ tokensOf value ++
      memberTokens false tail

end

/-! ## Writing gives the tokens -/

theorem tokens_separator (isFirst : Bool) (rest : List (Option Char)) :
    tokens ((if isFirst then [] else [',']).map some ++ rest) = separator isFirst ++ tokens rest := by
  cases isFirst with
  | true => rfl
  | false => exact tokens_cons rfl rfl

theorem tokens_colon (rest : List (Option Char)) :
    tokens ([':', ' '].map some ++ rest) = .colon :: tokens rest := by
  show tokens (some ':' :: some ' ' :: rest) = _
  rw [tokens_cons (t := .colon) rfl rfl, tokens_space rfl]

mutual

/-- The text of a value has the value's tokens. -/
theorem tokens_chars : ∀ (j : Json) (depth : Nat) (rest : List (Option Char)),
    readable j = true → tokens ((chars depth j).map some ++ rest) = tokensOf j ++ tokens rest
  | .null, depth, rest, _ => tokens_cons rfl rfl
  | .bool true, depth, rest, _ => tokens_cons rfl rfl
  | .bool false, depth, rest, _ => tokens_cons rfl rfl
  | .string value, depth, rest, _ => tokens_quote value rest
  | .array .nil, depth, rest, _ => by
      show tokens (some '[' :: some ']' :: rest) = _
      rw [tokens_cons (t := .openBracket) rfl rfl, tokens_cons (t := .closeBracket) rfl rfl]
      rfl
  | .array .cut, _, _, h => by simp [readable, readableItems] at h
  | .array (.cons head tail), depth, rest, h => by
      show tokens (some '[' :: ((itemChars depth true (.cons head tail)).map some ++ rest)) = _
      rw [tokens_cons (t := .openBracket) rfl rfl, tokens_itemChars _ depth true rest h]
      rfl
  | .object .nil, depth, rest, _ => by
      show tokens (some '\x7b' :: some '\x7d' :: rest) = _
      rw [tokens_cons (t := .openBrace) rfl rfl, tokens_cons (t := .closeBrace) rfl rfl]
      rfl
  | .object .cut, _, _, h => by simp [readable, readableMembers] at h
  | .object (.cons key value tail), depth, rest, h => by
      show tokens (some '\x7b' ::
        ((memberChars depth true (.cons key value tail)).map some ++ rest)) = _
      rw [tokens_cons (t := .openBrace) rfl rfl, tokens_memberChars _ depth true rest h]
      rfl

/-- The text of the items of a list has their tokens. -/
theorem tokens_itemChars : ∀ (items : JsonItems) (depth : Nat) (isFirst : Bool)
    (rest : List (Option Char)), readableItems items = true →
    tokens ((itemChars depth isFirst items).map some ++ rest) =
      itemTokens isFirst items ++ tokens rest
  | .nil, depth, isFirst, rest, _ => by
      simp only [itemChars, List.map_append, List.append_assoc, tokens_newLine]
      exact tokens_cons rfl rfl
  | .cut, _, _, _, h => by simp [readableItems] at h
  | .cons head tail, depth, isFirst, rest, h => by
      simp only [readableItems, Bool.and_eq_true] at h
      simp only [itemChars, itemTokens, List.map_append, List.append_assoc, tokens_separator,
        tokens_newLine, tokens_chars head _ _ h.1, tokens_itemChars tail _ _ _ h.2]

/-- The text of the members of an object has their tokens. -/
theorem tokens_memberChars : ∀ (members : JsonMembers) (depth : Nat) (isFirst : Bool)
    (rest : List (Option Char)), readableMembers members = true →
    tokens ((memberChars depth isFirst members).map some ++ rest) =
      memberTokens isFirst members ++ tokens rest
  | .nil, depth, isFirst, rest, _ => by
      simp only [memberChars, List.map_append, List.append_assoc, tokens_newLine]
      exact tokens_cons rfl rfl
  | .cut, _, _, _, h => by simp [readableMembers] at h
  | .cons key value tail, depth, isFirst, rest, h => by
      simp only [readableMembers, Bool.and_eq_true] at h
      simp only [memberChars, List.map_append, List.append_assoc, tokens_separator, tokens_newLine,
        tokens_quote, tokens_colon, tokens_chars value _ _ h.1.2, tokens_memberChars tail _ _ _ h.2]
      simp only [memberTokens, List.append_assoc, List.cons_append, List.nil_append]

end

/-! ## Reading takes the tokens -/

theorem tokensOf_ne_closeBracket {j : Json} (h : readable j = true) (rest more : List Token) :
    tokensOf j ++ rest ≠ .closeBracket :: more := by
  cases j <;> simp_all [tokensOf, readable]

theorem length_tokensOf_pos {j : Json} (h : readable j = true) : 0 < (tokensOf j).length := by
  cases j <;> simp_all [tokensOf, readable]

/-- What follows an item: the comma in front of the next, or the end. -/
theorem itemTokens_false_cons (head : Json) (tail : JsonItems) :
    itemTokens false (.cons head tail) = .comma :: itemTokens true (.cons head tail) := by
  simp [itemTokens, separator]

theorem memberTokens_false_cons (key : Option String) (value : Json) (tail : JsonMembers) :
    memberTokens false (.cons key value tail) =
      .comma :: memberTokens true (.cons key value tail) := by
  simp [memberTokens, separator]

mutual

/-- A value's tokens are read as the value. -/
theorem readValue_tokensOf : ∀ (j : Json) (steps : Nat) (rest : List Token),
    readable j = true → 2 * (tokensOf j).length ≤ steps + 1 →
    readValue steps (tokensOf j ++ rest) = (j, rest)
  | j, 0, _, h, hsteps => by
      have := length_tokensOf_pos h
      omega
  | .null, _ + 1, _, _, _ => rfl
  | .bool _, _ + 1, _, _, _ => rfl
  | .string _, _ + 1, _, _, _ => rfl
  | .array .nil, _ + 1, _, _, _ => rfl
  | .array .cut, _ + 1, _, h, _ => by simp [readable, readableItems] at h
  | .array (.cons head tail), steps + 1, rest, h, hsteps => by
      -- the bracket takes one of the two steps that are given to every token
      have hlen : (tokensOf (.array (.cons head tail))).length =
          (itemTokens true (.cons head tail)).length + 1 := rfl
      have hitems := readItems_itemTokens head tail steps rest h (by omega)
      simp only [readable, readableItems, Bool.and_eq_true] at h
      show readValue (steps + 1) (.openBracket :: (itemTokens true (.cons head tail) ++ rest)) = _
      rw [readValue]
      · rw [hitems]
      · intro more hmore
        simp only [itemTokens, separator, List.nil_append, List.append_assoc, if_true] at hmore
        exact tokensOf_ne_closeBracket h.1 _ _ hmore
  | .object .nil, _ + 1, _, _, _ => rfl
  | .object .cut, _ + 1, _, h, _ => by simp [readable, readableMembers] at h
  | .object (.cons key value tail), steps + 1, rest, h, hsteps => by
      have hlen : (tokensOf (.object (.cons key value tail))).length =
          (memberTokens true (.cons key value tail)).length + 1 := rfl
      have hmembers := readMembers_memberTokens key value tail steps rest h (by omega)
      show readValue (steps + 1)
        (.openBrace :: (memberTokens true (.cons key value tail) ++ rest)) = _
      rw [readValue]
      · rw [hmembers]
      · intro more hmore
        simp [memberTokens, separator] at hmore

/-- The tokens of a list's items are read as the items. -/
theorem readItems_itemTokens : ∀ (head : Json) (tail : JsonItems) (steps : Nat) (rest : List Token),
    readableItems (.cons head tail) = true →
    2 * (itemTokens true (.cons head tail)).length ≤ steps →
    readItems steps (itemTokens true (.cons head tail) ++ rest) = (.cons head tail, rest)
  | head, tail, 0, _, h, hsteps => by
      simp only [readableItems, Bool.and_eq_true] at h
      have := length_tokensOf_pos h.1
      simp only [itemTokens, separator, List.length_append] at hsteps
      omega
  | head, .nil, steps + 1, rest, h, hsteps => by
      simp only [readableItems, Bool.and_eq_true] at h
      simp only [itemTokens, separator, if_true, List.nil_append, List.length_append,
        List.length_singleton] at hsteps
      -- the last item is the one before the bracket
      have hhead := readValue_tokensOf head steps (.closeBracket :: rest) h.1 (by omega)
      simp [itemTokens, separator, readItems, hhead]
  | head, .cut, _ + 1, _, h, _ => by simp [readableItems] at h
  | head, .cons next more, steps + 1, rest, h, hsteps => by
      rw [readableItems, Bool.and_eq_true] at h
      have hsplit : itemTokens true (.cons head (.cons next more)) =
          tokensOf head ++ .comma :: itemTokens true (.cons next more) := by
        rw [← itemTokens_false_cons]
        simp [itemTokens, separator]
      rw [hsplit, List.length_append, List.length_cons] at hsteps
      have hhead := readValue_tokensOf head steps
        (.comma :: (itemTokens true (.cons next more) ++ rest)) h.1 (by omega)
      have htail := readItems_itemTokens next more steps rest h.2 (by omega)
      rw [hsplit, List.append_assoc, List.cons_append]
      simp only [readItems, hhead, htail]

/-- The tokens of an object's members are read as the members. -/
theorem readMembers_memberTokens : ∀ (key : Option String) (value : Json) (tail : JsonMembers)
    (steps : Nat) (rest : List Token), readableMembers (.cons key value tail) = true →
    2 * (memberTokens true (.cons key value tail)).length ≤ steps →
    readMembers steps (memberTokens true (.cons key value tail) ++ rest) =
      (.cons key value tail, rest)
  | key, value, tail, 0, _, _, hsteps => by
      simp only [memberTokens, List.length_append, List.length_cons] at hsteps
      omega
  | none, _, _, _ + 1, _, h, _ => by simp [readableMembers] at h
  | some key, value, .nil, steps + 1, rest, h, hsteps => by
      simp only [readableMembers, Bool.and_eq_true] at h
      simp only [memberTokens, separator, if_true, List.nil_append, List.length_append,
        List.length_cons] at hsteps
      have hvalue := readValue_tokensOf value steps (.closeBrace :: rest) h.1.2 (by omega)
      simp [memberTokens, separator, readMembers, hvalue]
  | some key, value, .cut, _ + 1, _, h, _ => by simp [readableMembers] at h
  | some key, value, .cons nextKey next more, steps + 1, rest, h, hsteps => by
      rw [readableMembers, Bool.and_eq_true, Bool.and_eq_true] at h
      have hsplit : memberTokens true (.cons (some key) value (.cons nextKey next more)) =
          .string (some key) :: .colon ::
            (tokensOf value ++ .comma :: memberTokens true (.cons nextKey next more)) := by
        rw [← memberTokens_false_cons]
        simp [memberTokens, separator]
      rw [hsplit, List.length_cons, List.length_cons, List.length_append, List.length_cons] at hsteps
      have hvalue := readValue_tokensOf value steps
        (.comma :: (memberTokens true (.cons nextKey next more) ++ rest)) h.1.2 (by omega)
      have htail := readMembers_memberTokens nextKey next more steps rest h.2 (by omega)
      rw [hsplit, List.cons_append, List.cons_append, List.append_assoc, List.cons_append]
      simp only [readMembers, hvalue, htail]

end

/-! ## Documents -/

/-- **The bytes of a document hold that document and nothing else.** -/
theorem ofBytes_encodeChars {j : Json} (h : readable j = true) :
    Document.ofBytes (Utf8.encodeChars (chars 0 j)) = ⟨j, true⟩ := by
  have htokens : tokens ((chars 0 j).map some) = tokensOf j := by
    have := tokens_chars j 0 [] h
    rwa [List.append_nil, tokens_nil, List.append_nil] at this
  have hread := readValue_tokensOf j (2 * (tokensOf j).length + 2) [] h (by omega)
  rw [List.append_nil] at hread
  simp only [Document.ofBytes, gapped_encodeChars, htokens, hread, List.isEmpty_nil]

/-- A document is read in a given way when its tree is. -/
theorem readDocument_encodeChars {α : Type} {read : Json → Except Fault α} {j : Json} {a : α}
    (h : readable j = true) (hread : read j = .ok a) :
    readDocument read (Utf8.encodeChars (chars 0 j)) = .ok a := by
  rw [readDocument, ofBytes_encodeChars h]
  simp only [hread]
  rfl

end OverlayVpn.Json
