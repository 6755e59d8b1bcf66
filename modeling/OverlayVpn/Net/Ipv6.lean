import OverlayVpn.Net.Ipv4

set_option autoImplicit false

/-! # IPv6 addresses

An address is eight groups of 16 bits. It is written in the shortest form: hexadecimal without
leading zeros, the longest run of two or more zero groups as `::`, and an IPv4 address in the
last two groups of `::ffff:0:0/96`. -/

namespace OverlayVpn

open Text

/-- An IPv6 address. -/
structure Ipv6 where
  groups : List UInt16
  length_eq : groups.length = 8
  deriving DecidableEq

namespace Ipv6

/-- The value of a hexadecimal digit in either case. -/
def hexValue? (c : Char) : Option Nat :=
  if '0' ≤ c ∧ c ≤ '9' then some (c.toNat - 48)
  else if 'a' ≤ c ∧ c ≤ 'f' then some (c.toNat - 87)
  else if 'A' ≤ c ∧ c ≤ 'F' then some (c.toNat - 55)
  else none

/-- A group: one to four hexadecimal digits. -/
def group? (cs : List Char) : Option UInt16 :=
  if cs.isEmpty || 4 < cs.length then none
  else (cs.mapM hexValue?).map fun ds => UInt16.ofNat (ds.foldl (fun n d => n * 16 + d) 0)

/-- The two groups of an IPv4 address. -/
def groupsOf (a : Ipv4) : List UInt16 :=
  [UInt16.ofNat (a.toNat / 65536), UInt16.ofNat (a.toNat % 65536)]

/-- The groups of a piece of the address; only the last may be an IPv4 address. -/
def groups? : List (List Char) → Option (List UInt16)
  | [] => some []
  | [last] =>
    match Ipv4.ofChars? false last with
    | some a => some (groupsOf a)
    | none => (group? last).map ([·])
  | cs :: rest => do
    let g ← group? cs
    let gs ← groups? rest
    return g :: gs

/-- The groups between colons, none in an empty text. -/
def colonGroups? (cs : List Char) : Option (List UInt16) :=
  if cs.isEmpty then some [] else groups? (pieces (· == ':') cs)

/-- Cuts at the first `::`. -/
def cutGap : List Char → Option (List Char × List Char)
  | ':' :: ':' :: rest => some ([], rest)
  | c :: rest => (cutGap rest).map fun (before, after) => (c :: before, after)
  | [] => none

/-- The address of eight groups. -/
def ofGroups? (gs : List UInt16) : Option Ipv6 :=
  if h : gs.length = 8 then some ⟨gs, h⟩ else none

/-- An address in any of its spellings. -/
def ofChars? (cs : List Char) : Option Ipv6 :=
  match cutGap cs with
  | none => (colonGroups? cs).bind ofGroups?
  | some (before, after) => do
    let front ← if before.isEmpty then some [] else (pieces (· == ':') before).mapM group?
    let back ← colonGroups? after
    -- the gap stands for one group at least
    if front.length + back.length ≤ 7 then
      ofGroups? (front ++ List.replicate (8 - (front.length + back.length)) 0 ++ back)
    else none

/-- The number of zero groups that a list of groups begins with. -/
def zeros (gs : List UInt16) : Nat := (gs.takeWhile (· == 0)).length

/-- The start and the length of the longest run of zero groups, the first of equal ones. -/
def longestRun (gs : List UInt16) : Nat × Nat :=
  (List.range gs.length).foldl
    (fun best i => if best.2 < zeros (gs.drop i) then (i, zeros (gs.drop i)) else best) (0, 0)

/-- A group as text. -/
def groupText (g : UInt16) : String := String.ofList (Nat.toDigits 16 g.toNat)

/-- Groups with colons between them. -/
def colonText (gs : List UInt16) : String := Text.join ":" (gs.map groupText)

/-- The address as text. -/
def text (a : Ipv6) : String :=
  match a.groups with
  | [0, 0, 0, 0, 0, 0xFFFF, high, low] =>
    "::ffff:" ++ (Ipv4.ofNat (high.toNat * 65536 + low.toNat)).text
  | gs =>
    let (start, length) := longestRun gs
    if 1 < length then colonText (gs.take start) ++ "::" ++ colonText (gs.drop (start + length))
    else colonText gs

/-- The address `::1` stays on the machine. -/
def isLoopback (a : Ipv6) : Bool := a.groups == [0, 0, 0, 0, 0, 0, 0, 1]

end Ipv6

/-- An address of either family. -/
inductive IpAddress where
  | v4 (address : Ipv4)
  | v6 (address : Ipv6)
  deriving DecidableEq

namespace IpAddress

/-- The address as text. -/
def text : IpAddress → String
  | v4 a => a.text
  | v6 a => a.text

/-- Whether the address stays on the machine. -/
def isLoopback : IpAddress → Bool
  | v4 a => a.isLoopback
  | v6 a => a.isLoopback

/-- An address of either family. -/
def read? (s : String) : Option IpAddress :=
  match Ipv4.read? s with
  | some a => some (v4 a)
  | none => (Ipv6.ofChars? s.toList).map v6

end IpAddress

end OverlayVpn
