set_option autoImplicit false

/-! # The curve behind the keys

Scalar multiplication on Curve25519 by the Montgomery ladder, on the field of `2^255 - 19`
elements. Points are given by their `u` coordinate as a fraction `x / z`; a private key is read
as a little-endian scalar with its low three bits cleared, its top bit cleared and the bit below
it set. -/

namespace OverlayVpn.Curve

/-- The order of the field. -/
def prime : Nat := Nat.pow 2 255 - 19

/-- The difference of two field elements. -/
def sub (a b : Nat) : Nat := (a + prime - b % prime) % prime

/-- The product of two field elements. -/
def mul (a b : Nat) : Nat := a * b % prime

/-- The power of a field element whose exponent has the bits `bits`, most significant first. -/
def powBits (a : Nat) (bits : List Bool) : Nat :=
  bits.foldl (fun r bit => if bit then mul (mul r r) a else mul r r) 1

/-- The lowest `count` bits of `n`, most significant first. -/
def bitsOf : Nat → Nat → List Bool
  | 0, _ => []
  | count + 1, n => n.testBit count :: bitsOf count n

/-- The inverse of a field element, and 0 for 0. -/
def inverse (a : Nat) : Nat := powBits a (bitsOf 255 (prime - 2))

/-- A point by the fraction `x / z` of its `u` coordinate; `z = 0` is the neutral point. -/
structure Point where
  x : Nat
  z : Nat
  deriving DecidableEq, Repr

/-- Twice a point. -/
def Point.double (p : Point) : Point :=
  -- `s - d = 4 x z`, and 121665 is a quarter of the curve's 486662 less 2
  let s := mul (p.x + p.z) (p.x + p.z)
  let d := mul (sub p.x p.z) (sub p.x p.z)
  let e := sub s d
  { x := mul s d, z := mul e (s + 121665 * e) }

/-- The sum of two points whose difference has the coordinate `u`. -/
def Point.add (u : Nat) (p q : Point) : Point :=
  let a := mul (sub q.x q.z) (p.x + p.z)
  let b := mul (q.x + q.z) (sub p.x p.z)
  { x := mul (a + b) (a + b), z := mul u (mul (sub a b) (sub a b)) }

/-- One step of the ladder: from `(n P, (n + 1) P)` to the pair for `2 n + bit`. -/
def ladderStep (u : Nat) (pair : Point × Point) (bit : Bool) : Point × Point :=
  let sum := Point.add u pair.1 pair.2
  if bit then (sum, pair.2.double) else (pair.1.double, sum)

/-- The coordinate of the multiple of the point at `u` by a 255-bit scalar. -/
def multiply (scalar u : Nat) : Nat :=
  let result := ((bitsOf 255 scalar).foldl (ladderStep u) (⟨1, 0⟩, ⟨u, 1⟩)).1
  mul result.x (inverse result.z)

/-- The number that bytes stand for, least significant first. -/
def ofBytes : List UInt8 → Nat
  | [] => 0
  | b :: rest => b.toNat + 256 * ofBytes rest

/-- The lowest `count` bytes of a number, least significant first. -/
def toBytes : Nat → Nat → List UInt8
  | 0, _ => []
  | count + 1, n => UInt8.ofNat (n % 256) :: toBytes count (n / 256)

theorem length_toBytes (count n : Nat) : (toBytes count n).length = count := by
  induction count generalizing n with
  | zero => rfl
  | succ count ih => rw [toBytes, List.length_cons, ih]

/-- The scalar that a private key stands for. -/
def scalarOf (key : List UInt8) : Nat :=
  -- bit 254 set, the bit above it and the three lowest cleared
  Nat.pow 2 254 + ofBytes key % Nat.pow 2 254 / 8 * 8

/-- The coordinate of the base point. -/
def basePoint : Nat := 9

/-- The public key of a private key. -/
def publicOf (key : List UInt8) : List UInt8 := toBytes 32 (multiply (scalarOf key) basePoint)

end OverlayVpn.Curve
