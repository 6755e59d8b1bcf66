set_option autoImplicit false

/-! # Base64

The standard alphabet with padding, three bytes in four symbols. Reading is strict: the last
group is filled up with `=`, and the bits that its last symbol has to spare are zero. A reader's
fault says which byte of the text is at fault. -/

namespace OverlayVpn.Base64

/-- The padding symbol `=`. -/
def pad : UInt8 := 61

/-- The symbol for six bits. -/
def symbol (v : Nat) : UInt8 :=
  if v < 26 then UInt8.ofNat (v + 65)
  else if v < 52 then UInt8.ofNat (v + 71)
  else if v < 62 then UInt8.ofNat (v - 4)
  else if v = 62 then 43
  else 47

/-- The six bits that a symbol stands for. -/
def value? (b : UInt8) : Option Nat :=
  let n := b.toNat
  if 65 ≤ n ∧ n ≤ 90 then some (n - 65)
  else if 97 ≤ n ∧ n ≤ 122 then some (n - 71)
  else if 48 ≤ n ∧ n ≤ 57 then some (n + 4)
  else if n = 43 then some 62
  else if n = 47 then some 63
  else none

/-- The symbols of a byte string. -/
def symbols : List UInt8 → List UInt8
  | [] => []
  | [a] => [symbol (a.toNat / 4), symbol (a.toNat % 4 * 16), pad, pad]
  | [a, b] =>
    [symbol (a.toNat / 4), symbol (a.toNat % 4 * 16 + b.toNat / 16),
      symbol (b.toNat % 16 * 4), pad]
  | a :: b :: c :: rest =>
    symbol (a.toNat / 4) :: symbol (a.toNat % 4 * 16 + b.toNat / 16) ::
      symbol (b.toNat % 16 * 4 + c.toNat / 64) :: symbol (c.toNat % 64) :: symbols rest

/-- A byte string as text. -/
def encode (bytes : List UInt8) : String :=
  String.ofList ((symbols bytes).map Char.ofUInt8)

/-- Why a text is not the text of a byte string. -/
inductive Fault where
  /-- A byte that may not stand at this place. -/
  | symbol (byte : UInt8) (offset : Nat)
  /-- The last group holds a single symbol; `count` bytes lead up to its end. -/
  | length (count : Nat)
  /-- The last group is not filled up. -/
  | padding
  /-- The last symbol's spare bits are not zero. -/
  | lastSymbol (byte : UInt8) (offset : Nat)
  deriving DecidableEq, Repr

/-- What is said of a fault. -/
def Fault.message : Fault → String
  | .symbol byte offset => s!"Invalid symbol {toString byte}, offset {toString offset}."
  | .length count => s!"Invalid input length: {toString count}"
  | .padding => "Invalid padding"
  | .lastSymbol byte offset => s!"Invalid last symbol {toString byte}, offset {toString offset}."

/-- The value of the symbol at `offset`. -/
def valueAt (offset : Nat) (b : UInt8) : Except Fault Nat :=
  match value? b with
  | some v => .ok v
  | none => .error (.symbol b offset)

/-- The content of the last group: the values of its symbols and the number of pads after them. -/
structure LastGroup where
  values : List Nat := []
  pads : Nat := 0
  deriving DecidableEq, Repr

/-- Reads on in the last group, which starts at `offset` and of which `i` bytes are read. -/
def LastGroup.scan (offset i : Nat) (group : LastGroup) : List UInt8 → Except Fault LastGroup
  | [] => .ok group
  | b :: rest =>
    if b = pad then
      if i < 2 then .error (.symbol b (offset + i))
      else scan offset (i + 1) { group with pads := group.pads + 1 } rest
    -- a symbol after a pad makes the first pad the faulty byte
    else if 0 < group.pads then .error (.symbol pad (offset + group.values.length))
    else do
      let v ← valueAt (offset + i) b
      scan offset (i + 1) { group with values := group.values ++ [v] } rest

/-- The bytes of the last group. -/
def LastGroup.bytes (offset : Nat) (group : LastGroup) : Except Fault (List UInt8) :=
  -- a group that is not filled up is faulty before its spare bits are
  if (group.values.length + group.pads) % 4 ≠ 0 then .error .padding
  else match group.values with
    | [a, b] =>
      if b % 16 ≠ 0 then .error (.lastSymbol (symbol b) (offset + 1))
      else .ok [UInt8.ofNat (a * 4 + b / 16)]
    | [a, b, c] =>
      if c % 4 ≠ 0 then .error (.lastSymbol (symbol c) (offset + 2))
      else .ok [UInt8.ofNat (a * 4 + b / 16), UInt8.ofNat (b % 16 * 16 + c / 4)]
    | [a, b, c, d] =>
      .ok [UInt8.ofNat (a * 4 + b / 16), UInt8.ofNat (b % 16 * 16 + c / 4),
        UInt8.ofNat (c % 4 * 64 + d)]
    | few => .error (.length (offset + few.length))

/-- Reads the last group: one to four bytes from `offset` on, or none of an empty text. -/
def readLast (offset : Nat) (bytes : List UInt8) : Except Fault (List UInt8) := do
  if bytes.isEmpty then return []
  let group ← LastGroup.scan offset 0 {} bytes
  if group.values.length < 2 then throw (.length (offset + group.values.length))
  group.bytes offset

/-- Reads the groups of four from `offset` on; only the last may be padded. -/
def readGroups (offset : Nat) : List UInt8 → Except Fault (List UInt8)
  | a :: b :: c :: d :: e :: rest => do
    let a ← valueAt offset a
    let b ← valueAt (offset + 1) b
    let c ← valueAt (offset + 2) c
    let d ← valueAt (offset + 3) d
    let more ← readGroups (offset + 4) (e :: rest)
    return UInt8.ofNat (a * 4 + b / 16) :: UInt8.ofNat (b % 16 * 16 + c / 4) ::
      UInt8.ofNat (c % 4 * 64 + d) :: more
  | last => readLast offset last

/-- A single byte in the last group is looked at first: no text ends in a foreign byte there. -/
def strayEnd (bytes : List UInt8) : Option Fault :=
  if bytes.length % 4 = 1 then
    match bytes.getLast? with
    | some b =>
      if b ≠ pad ∧ (value? b).isNone then some (.symbol b (bytes.length - 1)) else none
    | none => none
  else none

/-- The byte string that the bytes of a text stand for. -/
def decode (bytes : List UInt8) : Except Fault (List UInt8) :=
  match strayEnd bytes with
  | some fault => .error fault
  | none => readGroups 0 bytes

end OverlayVpn.Base64
