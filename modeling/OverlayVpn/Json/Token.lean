import OverlayVpn.Text.Decimal
import OverlayVpn.Text.Utf8

set_option autoImplicit false

/-! # The tokens of a JSON text

The text comes as characters with gaps, `none` standing for bytes that are no character. A
string that holds gaps or lone surrogates still ends where its closing quote is; its token then
holds no text. At anything else that is no token the list ends in `fault`. -/

namespace OverlayVpn.Json

open Text

/-- A token of a JSON text. -/
inductive Token where
  | openBrace
  | closeBrace
  | openBracket
  | closeBracket
  | comma
  | colon
  | null
  | bool (value : Bool)
  | number (spelling : List Char)
  /-- A string; `none` when it holds no text. -/
  | string (value : Option String)
  /-- What is no token. -/
  | fault
  deriving DecidableEq, Repr

/-- A part of a string. -/
inductive Letter where
  | char (c : Char)
  /-- Half of a character, by its number. -/
  | surrogate (n : Nat)
  /-- Bytes that are no character. -/
  | gap
  deriving DecidableEq, Repr

/-- The value of four hexadecimal digits. -/
def hex4? (digits : List (Option Char)) : Option Nat :=
  digits.foldlM (fun n d => do
    let c ← d
    let v ← if '0' ≤ c ∧ c ≤ '9' then some (c.toNat - 48)
      else if 'a' ≤ c ∧ c ≤ 'f' then some (c.toNat - 87)
      else if 'A' ≤ c ∧ c ≤ 'F' then some (c.toNat - 55)
      else none
    return n * 16 + v) 0

/-- The letter with a number below 65536. -/
def letterOf (n : Nat) : Letter :=
  if 0xD800 ≤ n ∧ n ≤ 0xDFFF then .surrogate n else .char (Char.ofNat n)

/-- The character that stands after a backslash. -/
def unescape? : Option Char → Option Char
  | some '"' => some '"'
  | some '\\' => some '\\'
  | some '/' => some '/'
  | some 'b' => some '\x08'
  | some 'f' => some '\x0c'
  | some 'n' => some '\n'
  | some 'r' => some '\r'
  | some 't' => some '\t'
  | _ => none

/-- The letters up to the closing quote and what follows it; `none` when there is no such end or a
letter is not well spelled. -/
def letters? : List (Option Char) → Option (List Letter × List (Option Char))
  | [] => none
  | none :: rest => (letters? rest).map fun (ls, rest) => (.gap :: ls, rest)
  | some '\\' :: some 'u' :: a :: b :: c :: d :: rest => do
    let n ← hex4? [a, b, c, d]
    let (ls, rest) ← letters? rest
    return (letterOf n :: ls, rest)
  | some '\\' :: e :: rest => do
    let c ← unescape? e
    let (ls, rest) ← letters? rest
    return (.char c :: ls, rest)
  | some c :: rest =>
    if c = '"' then some ([], rest)
    else if c.toNat < 32 || c = '\\' then none
    else (letters? rest).map fun (ls, rest) => (.char c :: ls, rest)

/-- The text of letters: two surrogates that belong together are one character. -/
def charsOf? : List Letter → Option (List Char)
  | [] => some []
  | .char c :: rest => (charsOf? rest).map (c :: ·)
  | .surrogate high :: .surrogate low :: rest =>
    if high < 0xDC00 ∧ 0xDC00 ≤ low then
      (charsOf? rest).map
        (Char.ofNat (0x10000 + (high - 0xD800) * 1024 + (low - 0xDC00)) :: ·)
    else none
  | _ => none

/-- Whether something is an ASCII digit. -/
def isDigit (c : Option Char) : Bool := (c.bind Decimal.digit?).isSome

/-- The characters of a list without gaps. -/
def known (cs : List (Option Char)) : List Char := cs.filterMap id

/-- Digits and what follows them. -/
def spanDigits (cs : List (Option Char)) : List Char × List (Option Char) :=
  (known (cs.takeWhile isDigit), cs.dropWhile isDigit)

/-- A number's integer part: a zero alone, or digits that start with none. -/
def wholePart? (cs : List (Option Char)) : Option (List Char × List (Option Char)) :=
  match spanDigits cs with
  | ([], _) => none
  | ('0' :: _ :: _, _) => none
  | found => some found

/-- A number's fraction, empty where no point stands. -/
def fraction? (cs : List (Option Char)) : Option (List Char × List (Option Char)) :=
  match cs with
  | some '.' :: rest =>
    match spanDigits rest with
    | ([], _) => none
    | (ds, rest) => some ('.' :: ds, rest)
  | _ => some ([], cs)

/-- The digits of an exponent after its sign. -/
def exponentDigits? (start : List Char) (cs : List (Option Char)) :
    Option (List Char × List (Option Char)) :=
  match spanDigits cs with
  | ([], _) => none
  | (ds, rest) => some (start ++ ds, rest)

/-- A number's exponent, empty where no letter for it stands. -/
def exponent? (cs : List (Option Char)) : Option (List Char × List (Option Char)) :=
  match cs with
  | some 'e' :: rest | some 'E' :: rest =>
    match rest with
    | some '+' :: rest => exponentDigits? ['e'] rest
    | some '-' :: rest => exponentDigits? ['e', '-'] rest
    | _ => exponentDigits? ['e'] rest
  | _ => some ([], cs)

/-- A number without its sign, and what follows it. -/
def magnitude? (cs : List (Option Char)) : Option (List Char × List (Option Char)) := do
  let (whole, cs) ← wholePart? cs
  let (fraction, cs) ← fraction? cs
  let (exponent, cs) ← exponent? cs
  return (whole ++ fraction ++ exponent, cs)

/-- What follows a word at the start of a list. -/
def afterWord? : List Char → List (Option Char) → Option (List (Option Char))
  | [], cs => some cs
  | w :: word, some c :: cs => if w = c then afterWord? word cs else none
  | _ :: _, _ => none

/-- The token that starts with `c`, and what follows it. -/
def token? (c : Char) (rest : List (Option Char)) : Option (Token × List (Option Char)) :=
  match c with
  | '\x7b' => some (.openBrace, rest)
  | '\x7d' => some (.closeBrace, rest)
  | '[' => some (.openBracket, rest)
  | ']' => some (.closeBracket, rest)
  | ',' => some (.comma, rest)
  | ':' => some (.colon, rest)
  | '"' => (letters? rest).map fun (ls, rest) =>
    (.string ((charsOf? ls).map String.ofList), rest)
  | 'n' => (afterWord? "ull".toList rest).map (Token.null, ·)
  | 't' => (afterWord? "rue".toList rest).map (Token.bool true, ·)
  | 'f' => (afterWord? "alse".toList rest).map (Token.bool false, ·)
  | '-' => (magnitude? rest).map fun (spelling, rest) => (.number ('-' :: spelling), rest)
  | c =>
    if (Decimal.digit? c).isSome then
      (magnitude? (some c :: rest)).map fun (spelling, rest) => (.number spelling, rest)
    else none

/-- Whether a character may stand between tokens. -/
def isSpace (c : Char) : Bool := c == ' ' || c == '\n' || c == '\t' || c == '\r'

/-! ### What follows a token is shorter than what it was read from -/

theorem length_letters? {cs rest : List (Option Char)} {ls : List Letter}
    (h : letters? cs = some (ls, rest)) : rest.length < cs.length := by
  fun_induction letters? cs generalizing ls rest <;>
    grind [Option.map_eq_some_iff, Option.bind_eq_some_iff, bind, pure]

theorem length_dropWhile_le {α : Type} (p : α → Bool) (xs : List α) :
    (xs.dropWhile p).length ≤ xs.length := by
  induction xs with
  | nil => simp
  | cons x xs ih =>
    rw [List.dropWhile_cons]
    split
    · simp only [List.length_cons]; omega
    · exact Nat.le_refl _

theorem length_dropWhile_lt {α : Type} (p : α → Bool) (x : α) (xs : List α) (h : p x = true) :
    ((x :: xs).dropWhile p).length < (x :: xs).length := by
  rw [List.dropWhile_cons, if_pos h, List.length_cons]
  exact Nat.lt_succ_of_le (length_dropWhile_le p xs)

theorem length_wholePart? {cs rest : List (Option Char)} {ds : List Char}
    (h : wholePart? cs = some (ds, rest)) : rest.length < cs.length := by
  cases cs with
  | nil => simp [wholePart?, spanDigits, known] at h
  | cons c cs =>
    by_cases digit : isDigit c = true
    · have shorter := length_dropWhile_lt isDigit c cs digit
      unfold wholePart? spanDigits at h
      grind
    · simp [wholePart?, spanDigits, known, digit] at h

theorem length_fraction? {cs rest : List (Option Char)} {ds : List Char}
    (h : fraction? cs = some (ds, rest)) : rest.length ≤ cs.length := by
  unfold fraction? at h
  split at h
  · rename_i tail
    have shorter := length_dropWhile_le isDigit tail
    unfold spanDigits at h
    grind
  · grind

theorem length_exponentDigits? {start : List Char} {cs rest : List (Option Char)} {ds : List Char}
    (h : exponentDigits? start cs = some (ds, rest)) : rest.length ≤ cs.length := by
  have shorter := length_dropWhile_le isDigit cs
  unfold exponentDigits? spanDigits at h
  grind

theorem length_exponent? {cs rest : List (Option Char)} {ds : List Char}
    (h : exponent? cs = some (ds, rest)) : rest.length ≤ cs.length := by
  unfold exponent? at h
  split at h
  · split at h
    all_goals
      have := length_exponentDigits? h
      simp_all only [List.length_cons]
      omega
  · split at h
    all_goals
      have := length_exponentDigits? h
      simp_all only [List.length_cons]
      omega
  · grind

theorem length_magnitude? {cs rest : List (Option Char)} {ds : List Char}
    (h : magnitude? cs = some (ds, rest)) : rest.length < cs.length := by
  simp only [magnitude?, bind, Option.bind_eq_some_iff, Prod.exists] at h
  obtain ⟨_, r1, h1, _, r2, h2, _, r3, h3, done⟩ := h
  have := length_wholePart? h1
  have := length_fraction? h2
  have := length_exponent? h3
  simp only [pure, Option.some.injEq, Prod.mk.injEq] at done
  obtain ⟨_, rfl⟩ := done
  omega

theorem length_afterWord? {word : List Char} {cs rest : List (Option Char)}
    (h : afterWord? word cs = some rest) : rest.length ≤ cs.length := by
  fun_induction afterWord? word cs <;> grind

theorem length_token? {c : Char} {cs rest : List (Option Char)} {t : Token}
    (h : token? c cs = some (t, rest)) : rest.length ≤ cs.length := by
  have string := @length_letters? cs
  have word := fun w => @length_afterWord? w cs
  have negative := @length_magnitude? cs
  have number := @length_magnitude? (some c :: cs)
  unfold token? at h
  grind [Option.map_eq_some_iff]

/-- The tokens of a text. -/
def tokens (cs : List (Option Char)) : List Token :=
  match cs with
  | [] => []
  | none :: _ => [.fault]
  | some c :: rest =>
    if isSpace c then tokens rest
    else match h : token? c rest with
      | none => [.fault]
      | some (t, more) =>
        have : more.length ≤ rest.length := length_token? h
        t :: tokens more
  termination_by cs.length

/-- The characters of a byte string, with gaps where it is not UTF-8. -/
def gapped (bytes : List UInt8) : List (Option Char) :=
  (Utf8.decode bytes).map fun
    | .char c => some c
    | _ => none

end OverlayVpn.Json
