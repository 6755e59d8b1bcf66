import OverlayVpn.Proofs.Pool.Lease
import OverlayVpn.Proofs.Pool.Range

set_option autoImplicit false

/-! # Pool arithmetic in 32-bit words

The range and the capacity of a pool and the check of an allocator's floor are numbers without
bounds. Here they are computed once more with words, by operations that fail where a result does
not fit (`Word.add?`, `Word.sub?`). These computations do not fail and give the same numbers
(`wordRange?_eq`, `wordCapacity?_eq`, `wordFloorHolds?_eq`), for every floor that calls of an
allocator lead to (`floor_serve_lt`), unless the range ends at the highest address of all: there
the capacity cannot be computed (`wordCapacity?_eq_none`). -/

namespace OverlayVpn

/-! ## Words that fail instead of wrapping around -/

namespace Word

/-- The sum of two words, if it fits. -/
def add? (a b : UInt32) : Option UInt32 :=
  if a.toNat + b.toNat < UInt32.size then some (a + b) else none

/-- The difference of two words, if it is not negative. -/
def sub? (a b : UInt32) : Option UInt32 := if b ≤ a then some (a - b) else none

/-- Numbers whose sum fits are added as words. -/
theorem add?_ofNat {m n : Nat} (h : m + n < UInt32.size) :
    add? (.ofNat m) (.ofNat n) = some (.ofNat (m + n)) := by
  have hm : (UInt32.ofNat m).toNat = m := UInt32.toNat_ofNat_of_lt' (by omega)
  have hn : (UInt32.ofNat n).toNat = n := UInt32.toNat_ofNat_of_lt' (by omega)
  rw [add?, if_pos (by omega), UInt32.ofNat_add]

/-- The smaller of two numbers is subtracted from the larger as words. -/
theorem sub?_ofNat {m n : Nat} (hm : m < UInt32.size) (h : n ≤ m) :
    sub? (.ofNat m) (.ofNat n) = some (.ofNat (m - n)) := by
  have hle : UInt32.ofNat n ≤ UInt32.ofNat m := (UInt32.ofNat_le_iff_le (by omega) hm).mpr h
  rw [sub?, if_pos hle, UInt32.ofNat_sub h]

end Word

namespace Pool

/-! ## Range and capacity -/

/-- The first and the last word of the range of a network's pool. -/
def wordRange? (network : Network) : Option (UInt32 × UInt32) := do
  let first ← Word.add? (.ofNat network.base) 1
  let last ←
    if network.length = 30 then some (.ofNat network.top) else Word.sub? (.ofNat network.top) 1
  return (first, last)

/-- Whether the gateway lies in `[start, stop)`. -/
def gatewayWithinWords (gateway start stop : UInt32) : Bool := start ≤ gateway && gateway < stop

/-- The span of `[first, stop)` without the gateway. -/
def wordSpan? (gateway first stop span : UInt32) : Option UInt32 :=
  if gatewayWithinWords gateway first stop then Word.sub? span 1 else some span

/-- How many words of a range are not the gateway's. -/
def wordCapacity? (first last gateway : UInt32) : Option UInt32 := do
  let span ← Word.sub? last first
  let span ← Word.add? span 1
  let stop ← Word.add? last 1
  wordSpan? gateway first stop span

/-- Whether every assignable word below the floor is among those in use. -/
def wordFloorHolds? (first gateway floor : UInt32) (used : List UInt32) : Option Bool :=
  if floor ≤ first then some true
  else do
    let below ← Word.sub? floor first
    let below ← wordSpan? gateway first floor below
    return UInt32.ofNat (used.filter fun n => first ≤ n && n < floor).length == below

theorem wordRange?_eq {network : Network} (h : network.length ≤ 30) (gateway : Ipv4) :
    wordRange? network =
      some (.ofNat (ofNetwork network gateway).first, .ofNat (ofNetwork network gateway).last) := by
  have hrange := first_add_two_le_last h gateway
  have hlast := last_ofNetwork_lt network gateway
  have htop := network.top_lt
  have hfirst : Word.add? (.ofNat network.base) 1 =
      some (.ofNat (ofNetwork network gateway).first) := Word.add?_ofNat (by
        show network.base + 1 < UInt32.size
        have hle := network.base_le_top
        simp only [ofNetwork] at hrange hlast
        omega)
  rw [wordRange?, hfirst, Option.bind_eq_bind, Option.bind_some, last_ofNetwork]
  split
  · rfl
  · rw [show (1 : UInt32) = .ofNat 1 from rfl, Word.sub?_ofNat htop (by
      rw [last_ofNetwork, if_neg ‹_›] at hrange
      omega)]
    rfl

/-- Words lie around the gateway's as their numbers do. -/
theorem gatewayWithinWords_ofNat (pool : Pool) {start stop : Nat} (hstart : start < UInt32.size)
    (hstop : stop < UInt32.size) :
    gatewayWithinWords pool.gateway.bits (.ofNat start) (.ofNat stop) =
      pool.gatewayWithin start stop := by
  simp only [gatewayWithinWords, gatewayWithin, UInt32.le_iff_toNat_le, UInt32.lt_iff_toNat_lt,
    UInt32.toNat_ofNat_of_lt' hstart, UInt32.toNat_ofNat_of_lt' hstop]
  rfl

/-- The assignable words below a bound are as many as the numbers. -/
theorem wordSpan?_eq (pool : Pool) {stop : Nat} (hfirst : pool.first < stop)
    (hstop : stop < UInt32.size) :
    wordSpan? pool.gateway.bits (.ofNat pool.first) (.ofNat stop) (.ofNat (stop - pool.first)) =
      some (.ofNat (pool.assignableBelow stop)) := by
  rw [wordSpan?, gatewayWithinWords_ofNat pool (by omega) hstop, assignableBelow]
  split
  · exact Word.sub?_ofNat (n := 1) (by omega) (by omega)
  · rfl

theorem wordCapacity?_eq {pool : Pool} (hrange : pool.first ≤ pool.last)
    (hlast : pool.last + 1 < UInt32.size) :
    wordCapacity? (.ofNat pool.first) (.ofNat pool.last) pool.gateway.bits =
      some (.ofNat pool.capacity) := by
  have hspan : Word.sub? (.ofNat pool.last) (.ofNat pool.first) =
      some (.ofNat (pool.last - pool.first)) := Word.sub?_ofNat (by omega) hrange
  have hmore : Word.add? (.ofNat (pool.last - pool.first)) 1 =
      some (.ofNat (pool.last - pool.first + 1)) := Word.add?_ofNat (n := 1) (by omega)
  have hstop : Word.add? (.ofNat pool.last) 1 = some (.ofNat (pool.last + 1)) :=
    Word.add?_ofNat (n := 1) hlast
  have hsame : pool.last - pool.first + 1 = pool.last + 1 - pool.first := by omega
  rw [hsame] at hmore
  simp only [wordCapacity?, hspan, hmore, hstop, Option.bind_eq_bind, Option.bind_some]
  exact wordSpan?_eq pool (by omega) hlast

/-- The capacity cannot be computed with words when the range ends at the highest address. -/
theorem wordCapacity?_eq_none (first gateway : UInt32) :
    wordCapacity? first (.ofNat (UInt32.size - 1)) gateway = none := by
  have hstop : Word.add? (.ofNat (UInt32.size - 1)) 1 = none := by decide
  simp only [wordCapacity?, hstop, Option.bind_eq_bind, Option.bind_none, Option.bind_fun_none]

/-! ## The check of the floor -/

/-- Words are counted as their numbers are. -/
theorem length_filter_ofNat {first floor : Nat} {used : List Nat} (hfirst : first < UInt32.size)
    (hfloor : floor < UInt32.size) (hused : ∀ n ∈ used, n < UInt32.size) :
    ((used.map UInt32.ofNat).filter fun n => .ofNat first ≤ n && n < .ofNat floor).length =
      (used.filter fun n => first ≤ n && n < floor).length := by
  rw [List.filter_map, List.length_map]
  refine congrArg List.length (List.filter_congr fun n hn => ?_)
  simp only [Function.comp_apply, UInt32.ofNat_le_iff_le hfirst (hused n hn),
    UInt32.ofNat_lt_iff_lt (hused n hn) hfloor]

/-- At most as many numbers are counted as there are below the floor. -/
theorem length_filter_le {used : List Nat} (h : used.Nodup) (first floor : Nat) :
    (used.filter fun n => first ≤ n && n < floor).length ≤ floor - first := by
  rw [← List.toFinset_card_of_nodup (h.filter _), ← Nat.card_Ico]
  refine Finset.card_le_card fun n hn => ?_
  simp only [List.mem_toFinset, List.mem_filter, Bool.and_eq_true, decide_eq_true_eq] at hn
  exact Finset.mem_Ico.mpr hn.2

theorem wordFloorHolds?_eq {pool : Pool} {floor : Nat} {used : List Nat}
    (hfirst : pool.first < UInt32.size) (hfloor : floor < UInt32.size) (hnodup : used.Nodup)
    (hused : ∀ n ∈ used, n < UInt32.size) :
    wordFloorHolds? (.ofNat pool.first) pool.gateway.bits (.ofNat floor) (used.map .ofNat) =
      some (Allocator.floorHolds pool floor used) := by
  unfold wordFloorHolds? Allocator.floorHolds
  simp only [UInt32.ofNat_le_iff_le hfloor hfirst]
  by_cases hle : floor ≤ pool.first
  · simp [hle]
  · have hspan : Word.sub? (.ofNat floor) (.ofNat pool.first) =
        some (.ofNat (floor - pool.first)) := Word.sub?_ofNat hfloor (by omega)
    have hbelow : pool.assignableBelow floor < UInt32.size := by
      simp only [assignableBelow]
      split <;> omega
    have hcount : (used.filter fun n => pool.first ≤ n && n < floor).length < UInt32.size :=
      lt_of_le_of_lt (length_filter_le hnodup pool.first floor) (by omega)
    simp only [hle, if_false, decide_false, Bool.false_or, hspan, Option.bind_eq_bind,
      Option.bind_some, wordSpan?_eq pool (by omega) hfloor, length_filter_ofNat hfirst hfloor hused]
    -- both counts fit, so that they are the same as words exactly when they are as numbers
    have hsame : ∀ {m n : Nat}, m < UInt32.size → n < UInt32.size →
        (UInt32.ofNat m == UInt32.ofNat n) = (m == n) := by
      intro m n hm hn
      rw [Bool.eq_iff_iff, beq_iff_eq, beq_iff_eq, ← UInt32.toNat_inj,
        UInt32.toNat_ofNat_of_lt' hm, UInt32.toNat_ofNat_of_lt' hn]
    exact congrArg some (hsame hcount hbelow)

end Pool

namespace Allocator

/-! ## The floors that calls lead to -/

/-- No call moves the floor beyond the words. -/
theorem floor_perform_lt {a : Allocator} (h : a.Sound) (hfloor : a.floor < UInt32.size)
    (call : Call) : (a.perform call).2.floor < UInt32.size := by
  cases call with
  | allocate known now =>
      show (a.allocate known now).2.floor < UInt32.size
      rcases allocate_cases h known now with ⟨address, -, -, heq⟩ | ⟨-, heq⟩
      · rw [heq]
        exact lt_of_le_of_lt (min_le_right _ _) (by decide)
      · rw [heq]
        exact hfloor
  | release address =>
      show (a.release address).2.floor < UInt32.size
      unfold release
      split
      · exact lt_of_le_of_lt (min_le_right _ _) hfloor
      · exact hfloor
  | isFree candidate known => exact hfloor
  | resetCounts => exact hfloor
  | readCounts => exact hfloor

/-- **Every floor that calls lead to is a word.** -/
theorem floor_serve_lt {a : Allocator} (h : a.Sound) (hfloor : a.floor < UInt32.size)
    (calls : List Call) : (a.serve calls).2.floor < UInt32.size := by
  induction calls generalizing a with
  | nil => exact hfloor
  | cons call calls ih => exact ih (sound_perform h call) (floor_perform_lt h hfloor call)

end Allocator

namespace Pool

/-! ## The arithmetic of a pool -/

/-- A text denotes the last network of four addresses, whose range ends at the highest address of
all. -/
def DenotesLast (cidr : String) : Prop :=
  ∃ network, Network.read? (Text.trim cidr) = some network ∧ network.length = 30 ∧
    network.top = UInt32.size - 1

/-- Every other range leaves room for the number after its last one. -/
theorem last_ofNetwork_add_one_lt {network : Network}
    (h : network.length = 30 → network.top ≠ UInt32.size - 1) (gateway : Ipv4) :
    (ofNetwork network.truncate gateway).last + 1 < UInt32.size := by
  have htop := network.top_lt
  have hsize : 1 < UInt32.size := by decide
  rw [last_ofNetwork, Network.top_truncate, Network.length_truncate]
  split
  · next hlength =>
      have hne := h hlength
      omega
  · omega

/-- The check of a floor that calls lead to can be computed with words. -/
theorem wordFloorHolds?_serve {pool : Pool} (hfirst : pool.first < UInt32.size)
    (hlast : pool.last < UInt32.size) (strategy : Strategy) (calls : List Allocator.Call)
    (known : List String) :
    let a := ((Allocator.create pool strategy).serve calls).2
    ∃ floor : UInt32, floor.toNat = a.floor ∧
      wordFloorHolds? (.ofNat pool.first) pool.gateway.bits floor ((a.taken known).map .ofNat) =
        some (Allocator.floorHolds pool a.floor (a.taken known)) := by
  intro a
  have hstart := Allocator.sound_create hlast strategy
  have hsound : a.Sound := Allocator.sound_serve hstart calls
  have hpool : a.pool = pool := Allocator.pool_serve _ calls
  have hfloor : a.floor < UInt32.size := Allocator.floor_serve_lt hstart hfirst calls
  have htaken : ∀ n ∈ a.taken known, n < UInt32.size := by
    intro n hn
    have hassign := Allocator.assignable_of_mem_taken hsound hn
    rw [hpool, assignableNumber_iff] at hassign
    omega
  exact ⟨.ofNat a.floor, UInt32.toNat_ofNat_of_lt' hfloor,
    wordFloorHolds?_eq hfirst hfloor (Allocator.nodup_taken hsound known) htaken⟩

/-- **Pools count exactly.** Leaving aside the network whose range ends at the highest address of
all, a pool is created exactly when the text is a network of four addresses or more and the gateway
lies in it. Then the pool assigns the network's addresses but the lowest, the gateway and, in a
network of more than four, the highest; they are those between its first and its last address that
are not the gateway's; the capacity is their number and never zero. The range, the capacity and the
check of every floor that calls lead to can be computed with 32-bit words, none of which wraps
around. -/
theorem pools_count_exactly {cidr gateway : String} (hcidr : ¬DenotesLast cidr) :
    ((∃ pool, create cidr gateway = .ok pool) ↔
      ∃ network address, Network.read? (Text.trim cidr) = some network ∧ network.length ≤ 30 ∧
        Ipv4.ofEntry? gateway = some address ∧ network.Holds address) ∧
    ∀ pool, create cidr gateway = .ok pool → ∃ network,
      Network.read? (Text.trim cidr) = some network ∧
      Ipv4.ofEntry? gateway = some pool.gateway ∧
      (∀ a, pool.assignable a = true ↔ network.Holds a ∧ a.toNat ≠ network.base ∧
        a ≠ pool.gateway ∧ (network.length < 30 → a.toNat ≠ network.top)) ∧
      (∀ a, pool.assignable a = true ↔ pool.firstAddress.toNat ≤ a.toNat ∧
        a.toNat ≤ pool.lastAddress.toNat ∧ a ≠ pool.gateway) ∧
      pool.capacity = {a : Ipv4 | pool.assignable a = true}.ncard ∧ 0 < pool.capacity ∧
      ∃ first last capacity : UInt32,
        wordRange? network.truncate = some (first, last) ∧ first = pool.firstAddress.bits ∧
        last = pool.lastAddress.bits ∧
        wordCapacity? first last pool.gateway.bits = some capacity ∧
        capacity.toNat = pool.capacity ∧
        ∀ (strategy : Strategy) (calls : List Allocator.Call) (known : List String),
          let a := ((Allocator.create pool strategy).serve calls).2
          ∃ floor : UInt32, floor.toNat = a.floor ∧
            wordFloorHolds? first pool.gateway.bits floor ((a.taken known).map .ofNat) =
              some (Allocator.floorHolds pool a.floor (a.taken known)) := by
  constructor
  · simp only [create_eq_ok_iff]
    constructor
    · rintro ⟨pool, network, address, hread, hlength, haddress, hholds, -⟩
      exact ⟨network, address, hread, hlength, haddress, hholds⟩
    · rintro ⟨network, address, hread, hlength, haddress, hholds⟩
      exact ⟨_, network, address, hread, hlength, haddress, hholds, rfl⟩
  · intro pool hpool
    obtain ⟨network, address, hread, hlength, haddress, -, rfl⟩ := create_eq_ok_iff.mp hpool
    set pool := ofNetwork network.truncate address with hdef
    have hshort : network.truncate.length ≤ 30 := hlength
    have hrange := first_add_two_le_last hshort address
    rw [← hdef] at hrange
    have hnext : pool.last + 1 < UInt32.size :=
      last_ofNetwork_add_one_lt (fun h htop => hcidr ⟨network, hread, h, htop⟩) address
    have hfirst : pool.first < UInt32.size := by omega
    have hlast : pool.last < UInt32.size := by omega
    have hcapacity : pool.capacity < UInt32.size := by
      simp only [capacity, assignableBelow]
      split <;> omega
    refine ⟨network, hread, haddress, fun a => assignable_ofNetwork_iff hlength, fun a => ?_,
      capacity_eq_ncard hlast, capacity_ofNetwork_pos hshort address, .ofNat pool.first,
      .ofNat pool.last, .ofNat pool.capacity, wordRange?_eq hshort address, rfl, rfl,
      wordCapacity?_eq (by omega) hnext, UInt32.toNat_ofNat_of_lt' hcapacity,
      wordFloorHolds?_serve hfirst hlast⟩
    rw [assignable, assignableNumber_iff, firstAddress, lastAddress, Ipv4.toNat_ofNat hfirst,
      Ipv4.toNat_ofNat hlast, ne_eq a, Ipv4.ext_toNat_iff]

/-- All addresses there are, and the highest of them for the gateway, which is not assigned anyway:
two are left out. -/
theorem pools_count_exactly_of_all :
    let cidr := " 0.0.0.77/0"
    let gateway := "255.255.255.255/8 "
    let pool := ofNetwork ⟨.ofNat 0, 0, by decide⟩ (.ofNat (UInt32.size - 1))
    ¬DenotesLast cidr ∧ create cidr gateway = .ok pool ∧
      {a : Ipv4 | pool.assignable a = true}.ncard = 4294967294 ∧
      ∃ network first last capacity, Network.read? (Text.trim cidr) = some network ∧
        wordRange? network.truncate = some (first, last) ∧
        wordCapacity? first last pool.gateway.bits = some capacity ∧
        capacity.toNat = 4294967294 := by
  intro cidr gateway pool
  have hread : Network.read? (Text.trim cidr) = some ⟨.ofNat 77, 0, by decide⟩ := by
    decide +kernel
  have hcidr : ¬DenotesLast cidr := by
    rintro ⟨network, hnetwork, hlength, -⟩
    rw [hread, Option.some.injEq] at hnetwork
    rw [← hnetwork] at hlength
    cases hlength
  have hpool : create cidr gateway = .ok pool := by decide +kernel
  have hcapacity : pool.capacity = 4294967294 := by decide +kernel
  obtain ⟨network, hnetwork, -, -, -, hcount, -, first, last, capacity, hrange, -, -, hwords, hval,
    -⟩ := (pools_count_exactly hcidr).2 pool hpool
  rw [hcapacity] at hcount hval
  exact ⟨hcidr, hpool, hcount.symm, network, first, last, capacity, hnetwork, hrange, hwords, hval⟩

end Pool

end OverlayVpn
