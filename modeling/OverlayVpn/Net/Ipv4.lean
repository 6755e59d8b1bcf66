import OverlayVpn.Text.Blank
import OverlayVpn.Text.Decimal

set_option autoImplicit false

/-! # IPv4 addresses and networks

An address is written as four decimal octets. On its own an octet has no leading zero; inside a
network `a.b.c.d/n` it may have some. A network keeps its host bits until it is truncated. -/

namespace OverlayVpn

open Text

/-- An IPv4 address. -/
structure Ipv4 where
  /-- The address as a number, its first octet most significant. -/
  bits : UInt32
  deriving DecidableEq, Repr

namespace Ipv4

/-- The address as a natural number. -/
def toNat (a : Ipv4) : Nat := a.bits.toNat

/-- The address with a number. -/
def ofNat (n : Nat) : Ipv4 := ⟨UInt32.ofNat n⟩

/-- The address with four octets. -/
def ofOctets (a b c d : Nat) : Ipv4 := ofNat (((a * 256 + b) * 256 + c) * 256 + d)

/-- The octets of an address. -/
def octets (a : Ipv4) : List Nat :=
  [a.toNat / 16777216, a.toNat / 65536 % 256, a.toNat / 256 % 256, a.toNat % 256]

/-- The address as text. -/
def text (a : Ipv4) : String := Text.join "." (a.octets.map Decimal.render)

/-- An octet: one to three digits below 256, with leading zeros only where they are allowed. -/
def octet? (leadingZeros : Bool) (cs : List Char) : Option Nat :=
  if 3 < cs.length then none
  else if ! leadingZeros && 1 < cs.length && cs.head? == some '0' then none
  else (Decimal.digits? cs).filter (· < 256)

/-- Four octets with dots between them. -/
def ofChars? (leadingZeros : Bool) (cs : List Char) : Option Ipv4 :=
  match pieces (· == '.') cs with
  | [a, b, c, d] => do
    let a ← octet? leadingZeros a
    let b ← octet? leadingZeros b
    let c ← octet? leadingZeros c
    let d ← octet? leadingZeros d
    return ofOctets a b c d
  | _ => none

/-- A bare address. -/
def read? (s : String) : Option Ipv4 := ofChars? false s.toList

/-- The addresses `127.x.y.z` stay on the machine. -/
def isLoopback (a : Ipv4) : Bool := a.toNat / 16777216 == 127

@[ext] theorem ext_toNat {a b : Ipv4} (h : a.toNat = b.toNat) : a = b := by
  cases a; cases b; simp only [toNat] at h; exact congrArg _ (UInt32.toNat.inj h)

theorem toNat_lt (a : Ipv4) : a.toNat < UInt32.size := a.bits.toNat_lt

@[simp] theorem ofNat_toNat (a : Ipv4) : ofNat a.toNat = a := by
  cases a; simp [ofNat, toNat]

theorem toNat_ofNat {n : Nat} (h : n < UInt32.size) : (ofNat n).toNat = n :=
  UInt32.toNat_ofNat_of_lt' h

end Ipv4

/-- An address together with the number of its leading bits that name the network. -/
structure Network where
  address : Ipv4
  length : Nat
  length_le : length ≤ 32 := by decide
  deriving DecidableEq

namespace Network

/-- How many addresses the network has. -/
def size (n : Network) : Nat := Nat.pow 2 (32 - n.length)

/-- The lowest address, as a number. -/
def base (n : Network) : Nat := n.address.toNat / n.size * n.size

/-- The highest address, as a number. -/
def top (n : Network) : Nat := n.base + (n.size - 1)

/-- Whether an address belongs to the network. -/
def contains (n : Network) (a : Ipv4) : Bool := n.base ≤ a.toNat && a.toNat ≤ n.top

/-- The network without host bits. -/
def truncate (n : Network) : Network := { n with address := .ofNat n.base }

/-- The network of a single address. -/
def host (a : Ipv4) : Network := { address := a, length := 32 }

/-- The network as text. -/
def text (n : Network) : String := n.address.text ++ "/" ++ Decimal.render n.length

/-- The length of a network's name: one or two digits, at most 32. -/
def length? (cs : List Char) : Option { n : Nat // n ≤ 32 } :=
  if 2 < cs.length then none
  else (Decimal.digits? cs).bind fun n => if h : n ≤ 32 then some ⟨n, h⟩ else none

/-- A network `a.b.c.d/n`. -/
def ofChars? (cs : List Char) : Option Network := do
  let (address, length) ← cutAt '/' cs
  let address ← Ipv4.ofChars? true address
  let length ← length? length
  return ⟨address, length.val, length.property⟩

/-- A network `a.b.c.d/n`. -/
def read? (s : String) : Option Network := ofChars? s.toList

/-- What is said of a text that is no network. -/
def badText : String := "invalid IP address syntax"

end Network

/-- The address that an entry names: an address alone, or in front of a network's length. -/
def Ipv4.ofEntry? (entry : String) : Option Ipv4 :=
  let cs := trimmed entry.toList
  if cs.contains '/' then (Network.ofChars? cs).map (·.address) else Ipv4.ofChars? false cs

end OverlayVpn
