set_option autoImplicit false

/-! # Decimal integers

Reading and printing of integers in decimal. A natural number may carry a `+`, an integer `+` or
`-`; then come ASCII digits alone, at least one, leading zeros allowed. The caller names the
range of the values it takes. -/

namespace OverlayVpn.Text.Decimal

/-- The value of an ASCII digit. -/
def digit? (c : Char) : Option Nat :=
  if '0' ≤ c ∧ c ≤ '9' then some (c.toNat - '0'.toNat) else none

/-- The value of `cs` after the digits read so far, which stand for `value`. -/
def valueFrom (value : Nat) : List Char → Option Nat
  | [] => some value
  | c :: rest => (digit? c).bind fun d => valueFrom (value * 10 + d) rest

/-- The value of a non-empty list of digits. -/
def digits? : List Char → Option Nat
  | [] => none
  | cs => valueFrom 0 cs

/-- A natural number below `bound`, with or without `+`. -/
def natural? (bound : Nat) (cs : List Char) : Option Nat :=
  let digits := match cs with
    | '+' :: rest => rest
    | _ => cs
  (digits? digits).filter (· < bound)

/-- An integer in `[-bound, bound)`, with or without a sign. -/
def integer? (bound : Nat) (cs : List Char) : Option Int :=
  match cs with
  | '-' :: digits => (digits? digits).bind fun n =>
    if n ≤ bound then some (-(n : Int)) else none
  | '+' :: digits => (digits? digits).bind fun n =>
    if n < bound then some (n : Int) else none
  | digits => (digits? digits).bind fun n =>
    if n < bound then some (n : Int) else none

/-- A 16-bit number. -/
def word16? (s : String) : Option UInt16 := (natural? UInt16.size s.toList).map UInt16.ofNat

/-- A 32-bit number. -/
def word32? (s : String) : Option UInt32 := (natural? UInt32.size s.toList).map UInt32.ofNat

/-- A 64-bit number. -/
def word64? (s : String) : Option UInt64 := (natural? UInt64.size s.toList).map UInt64.ofNat

/-- The least number that does not fit in 64 bits with its sign. -/
def signedBound : Nat := UInt64.size / 2

/-- An integer that fits in 64 bits with its sign. -/
def signed64? (s : String) : Option Int := integer? signedBound s.toList

/-- The least number that rounds to infinity in double precision. -/
def doubleBound : Nat := Nat.pow 2 1024 - Nat.pow 2 970

/-- Whether `significand * 10 ^ scale` rounds to infinity in double precision. The significand has
at most `count` digits; together with the scale they tell at once when the number is below one or
far too large. -/
def tooLarge (count significand : Nat) (scale : Int) : Bool :=
  if significand = 0 || scale + count ≤ 0 then false
  else if 400 < scale then true
  else if 0 ≤ scale then doubleBound ≤ significand * Nat.pow 10 scale.toNat
  else doubleBound ≤ significand / Nat.pow 10 scale.natAbs

/-- The digit characters of a number. -/
def digits (n : Nat) : List Char := Nat.toDigits 10 n

/-- A number in decimal. -/
def render (n : Nat) : String := String.ofList (digits n)

/-- An integer in decimal, `-` in front of a negative one. -/
def renderInt (n : Int) : String :=
  if n < 0 then "-" ++ render n.natAbs else render n.natAbs

/-- A number in decimal with zeros in front up to `width` digits. -/
def padded (width n : Nat) : String :=
  let ds := digits n
  String.ofList (List.replicate (width - ds.length) '0' ++ ds)

end OverlayVpn.Text.Decimal
