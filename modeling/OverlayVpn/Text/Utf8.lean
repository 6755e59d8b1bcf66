set_option autoImplicit false

/-! # UTF-8

Characters as one to four bytes, and a byte string read back as a list of pieces. A piece is a
character, or a stretch of bytes that begins none: the longest start of a well-formed sequence
that the following bytes do not continue, which is also what one replacement character stands
for. -/

namespace OverlayVpn.Text.Utf8

/-- The bytes of a character. -/
def encodeChar (c : Char) : List UInt8 :=
  let n := c.toNat
  if n < 0x80 then [UInt8.ofNat n]
  else if n < 0x800 then [UInt8.ofNat (0xC0 + n / 64), UInt8.ofNat (0x80 + n % 64)]
  else if n < 0x10000 then
    [UInt8.ofNat (0xE0 + n / 4096), UInt8.ofNat (0x80 + n / 64 % 64), UInt8.ofNat (0x80 + n % 64)]
  else
    [UInt8.ofNat (0xF0 + n / 262144), UInt8.ofNat (0x80 + n / 4096 % 64),
      UInt8.ofNat (0x80 + n / 64 % 64), UInt8.ofNat (0x80 + n % 64)]

/-- The bytes of a list of characters. -/
def encodeChars (cs : List Char) : List UInt8 := cs.flatMap encodeChar

/-- The bytes of a text. -/
def encode (s : String) : List UInt8 := encodeChars s.toList

/-- A stretch of a byte string. -/
inductive Piece where
  /-- A well-formed sequence. -/
  | char (c : Char)
  /-- `width` bytes that begin a sequence which the next byte does not continue. -/
  | broken (width : Nat)
  /-- `width` bytes that begin a sequence, at the end of the bytes. -/
  | cutOff (width : Nat)
  deriving DecidableEq, Repr

/-- The character with a code point; well-formed sequences have no others. -/
def charOf (n : Nat) : Char := Char.ofNat n

/-- How many bytes follow a lead byte, and the least and the greatest that may come first. -/
def lead? (b : Nat) : Option (Nat × Nat × Nat) :=
  -- `C0` and `C1` would begin a second spelling of the 128 lowest characters
  if b < 0xC2 then none
  else if b < 0xE0 then some (1, 0x80, 0xBF)
  else if b = 0xE0 then some (2, 0xA0, 0xBF)
  -- surrogates are no characters
  else if b = 0xED then some (2, 0x80, 0x9F)
  else if b < 0xF0 then some (2, 0x80, 0xBF)
  else if b = 0xF0 then some (3, 0x90, 0xBF)
  else if b < 0xF4 then some (3, 0x80, 0xBF)
  else if b = 0xF4 then some (3, 0x80, 0x8F)
  else none

/-- Whether `b` may follow a lead byte at a place other than the first. -/
def continues (b : UInt8) : Bool := 0x80 ≤ b.toNat && b.toNat ≤ 0xBF

/-- The pieces of a byte string. -/
def decode (bytes : List UInt8) : List Piece :=
  match bytes with
  | [] => []
  | b :: rest =>
    if b.toNat < 0x80 then .char (charOf b.toNat) :: decode rest
    else match lead? b.toNat with
    | none => .broken 1 :: decode rest
    | some (more, low, high) =>
      match rest with
      | [] => [.cutOff 1]
      | b1 :: rest1 =>
        if b1.toNat < low ∨ high < b1.toNat then .broken 1 :: decode (b1 :: rest1)
        else if more = 1 then
          .char (charOf (b.toNat % 32 * 64 + b1.toNat % 64)) :: decode rest1
        else match rest1 with
        | [] => [.cutOff 2]
        | b2 :: rest2 =>
          if ! continues b2 then .broken 2 :: decode (b2 :: rest2)
          else if more = 2 then
            .char (charOf (b.toNat % 16 * 4096 + b1.toNat % 64 * 64 + b2.toNat % 64)) ::
              decode rest2
          else match rest2 with
          | [] => [.cutOff 3]
          | b3 :: rest3 =>
            if ! continues b3 then .broken 3 :: decode (b3 :: rest3)
            else
              .char (charOf (b.toNat % 8 * 262144 + b1.toNat % 64 * 4096 + b2.toNat % 64 * 64 +
                b3.toNat % 64)) :: decode rest3
  termination_by bytes.length
  decreasing_by all_goals simp only [List.length_cons]; omega

/-- The first place where a byte string is not UTF-8. -/
structure Fault where
  /-- How many bytes are well-formed before it. -/
  offset : Nat
  /-- The width of the stretch, unless the bytes end in it. -/
  width : Option Nat
  deriving DecidableEq, Repr

/-- What is said of a fault. -/
def Fault.message (f : Fault) : String :=
  match f.width with
  | some w => s!"invalid utf-8 sequence of {toString w} bytes from index {toString f.offset}"
  | none => s!"incomplete utf-8 byte sequence from index {toString f.offset}"

/-- The characters of pieces that start `offset` bytes into a text, if all are characters. -/
def charsFrom (offset : Nat) : List Piece → Except Fault (List Char)
  | [] => .ok []
  | .char c :: rest => (charsFrom (offset + (encodeChar c).length) rest).map (c :: ·)
  | .broken w :: _ => .error ⟨offset, some w⟩
  | .cutOff _ :: _ => .error ⟨offset, none⟩

/-- The text that the bytes are, or the first fault. -/
def read (bytes : List UInt8) : Except Fault String :=
  (charsFrom 0 (decode bytes)).map String.ofList

/-- The text that the bytes are. -/
def read? (bytes : List UInt8) : Option String := (read bytes).toOption

/-- The replacement character. -/
def replacement : Char := '\uFFFD'

/-- The character shown for a piece. -/
def Piece.shown : Piece → Char
  | .char c => c
  | _ => replacement

/-- The text with a replacement character for every stretch that is not UTF-8. -/
def readLossy (bytes : List UInt8) : String :=
  String.ofList ((decode bytes).map Piece.shown)

end OverlayVpn.Text.Utf8
