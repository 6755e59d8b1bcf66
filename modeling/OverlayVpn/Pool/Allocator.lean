import OverlayVpn.Config.Basic
import OverlayVpn.Pool.Basic
import OverlayVpn.Time.Timestamp

set_option autoImplicit false

/-! # Handing out addresses

An allocator hands out the lowest address of its pool that is free: neither among the entries
that the caller knows to be taken, nor reserved because the allocator handed it out itself. The
tracked strategy remembers a floor below which all was taken, and starts there as long as that
is still so; the linear strategy always starts at the pool's first address. -/

namespace OverlayVpn

/-- Counts of what an allocator did. They are kept in 64 bits, and no run makes so many calls that
they do not fit. -/
structure AllocatorCounts where
  allocations : UInt64 := 0
  failures : UInt64 := 0
  /-- When the last address was handed out. -/
  lastAllocation : Option Timestamp := none
  deriving DecidableEq

/-- An allocator of addresses. -/
structure Allocator where
  pool : Pool
  strategy : Strategy
  /-- The address numbers that were handed out and not released. -/
  reserved : List Nat := []
  /-- No assignable address below this number is known to be free. -/
  floor : Nat
  counts : AllocatorCounts := {}
  deriving DecidableEq

namespace Allocator

/-- A fresh allocator. -/
def create (pool : Pool) (strategy : Strategy) : Allocator :=
  { pool, strategy, floor := pool.first }

/-- The allocator that a configuration asks for. -/
def ofConfig (config : PoolConfig) : Except Pool.Fault Allocator :=
  (Pool.create config.cidr config.gateway).map (create · config.strategy)

/-- The address numbers in use, each once: those of the known entries that lie in the pool, and
those reserved. -/
def taken (a : Allocator) (known : List String) : List Nat :=
  ((known.filterMap Ipv4.ofEntry?).map Ipv4.toNat).foldl
    (fun used n => if a.pool.assignableNumber n then used.insert n else used) a.reserved

/-- The first number among `count` from `start` on that satisfies `p`. -/
def firstFrom (p : Nat → Bool) (start : Nat) : Nat → Option Nat
  | 0 => none
  | count + 1 => if p start then some start else firstFrom p (start + 1) count

/-- The lowest free address number from `start` on. -/
def lowestFree (pool : Pool) (used : List Nat) (start : Nat) : Option Nat :=
  firstFrom (fun n => n ≠ pool.gateway.toNat && ! used.contains n) start (pool.last + 1 - start)

/-- Whether every assignable address below the floor is in use. -/
def floorHolds (pool : Pool) (floor : Nat) (used : List Nat) : Bool :=
  floor ≤ pool.first ||
    -- `used` holds assignable numbers, each once, so that counting them is enough
    (used.filter fun n => pool.first ≤ n && n < floor).length == pool.assignableBelow floor

/-- Where the search for a free address starts. -/
def searchStart (a : Allocator) (used : List Nat) : Nat :=
  match a.strategy with
  | .linear => a.pool.first
  | .tracked => if floorHolds a.pool a.floor used then a.floor else a.pool.first

/-- Hands out the lowest free address as a network of its own. -/
def allocate (a : Allocator) (known : List String) (now : Timestamp) :
    Except Pool.Fault Network × Allocator :=
  let used := a.taken known
  match lowestFree a.pool used (a.searchStart used) with
  | some n =>
    (.ok (.host (.ofNat n)),
      { a with
        reserved := a.reserved.insert n
        -- the highest address of all has none after it
        floor := min (n + 1) (UInt32.size - 1)
        counts := { a.counts with
          allocations := a.counts.allocations + 1, lastAllocation := some now } })
  | none =>
    (.error (.exhausted a.pool.network),
      { a with counts := { a.counts with failures := a.counts.failures + 1 } })

/-- Whether the address that an entry names could be handed out. -/
def isFree (a : Allocator) (candidate : String) (known : List String) : Bool :=
  match Ipv4.ofEntry? candidate with
  | none => false
  | some address =>
    a.pool.assignable address && ! (a.taken known).contains address.toNat

/-- Takes an address back; says whether it was reserved. -/
def release (a : Allocator) (address : Ipv4) : Bool × Allocator :=
  if a.pool.assignable address then
    let n := address.toNat
    (a.reserved.contains n,
      { a with floor := min n a.floor, reserved := a.reserved.filter (· != n) })
  else (false, a)

/-- Sets the counts back. -/
def resetCounts (a : Allocator) : Allocator := { a with counts := {} }

end Allocator

end OverlayVpn
