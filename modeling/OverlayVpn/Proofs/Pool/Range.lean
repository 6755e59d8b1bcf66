import Mathlib.Data.Set.Card
import OverlayVpn.Proofs.Pool.Basic

set_option autoImplicit false

/-! # Which networks have a pool, and what it assigns

A network holds the addresses with its leading bits (`Network.Holds`), which are those from its
lowest to its highest. A pool is created for every network of four addresses or more that holds the
gateway, and for no other (`create_eq_ok_iff`). It assigns the addresses of the network but the
lowest, the gateway and, in networks of more than four, the highest
(`assignable_ofNetwork_iff`); its capacity counts them (`capacity_eq_ncard`) and is never zero. -/

namespace OverlayVpn

namespace Network

/-- An address lies in a network: it has the network's leading bits. -/
def Holds (n : Network) (a : Ipv4) : Prop := a.toNat / n.size = n.address.toNat / n.size

theorem holds_iff {n : Network} {a : Ipv4} : n.Holds a ↔ n.base ≤ a.toNat ∧ a.toNat ≤ n.top := by
  have hpos := n.size_pos
  rw [Holds, Nat.div_eq_iff hpos, top, base]
  omega

theorem contains_iff {n : Network} {a : Ipv4} : n.contains a = true ↔ n.Holds a := by
  simp [contains, holds_iff]

theorem base_le_top (n : Network) : n.base ≤ n.top := Nat.le_add_right _ _

@[simp] theorem size_truncate (n : Network) : n.truncate.size = n.size := rfl

@[simp] theorem length_truncate (n : Network) : n.truncate.length = n.length := rfl

@[simp] theorem base_truncate (n : Network) : n.truncate.base = n.base := by
  have hbase : (Ipv4.ofNat n.base).toNat = n.base :=
    Ipv4.toNat_ofNat (lt_of_le_of_lt n.base_le_top n.top_lt)
  show (Ipv4.ofNat n.base).toNat / n.size * n.size = n.base
  rw [hbase, base, Nat.mul_div_cancel _ n.size_pos]

@[simp] theorem top_truncate (n : Network) : n.truncate.top = n.top := by
  rw [top, base_truncate, size_truncate, top]

theorem size_of_length_eq {n : Network} (h : n.length = 30) : n.size = 4 := by
  rw [size, h]

/-- A network with at most `k` leading bits has the addresses of one with `k`, or more. -/
theorem pow_le_size {n : Network} {k : Nat} (h : n.length ≤ k) : 2 ^ (32 - k) ≤ n.size :=
  Nat.pow_le_pow_right (by decide) (by omega)

end Network

namespace Pool

/-! ## The pool of a network -/

/-- How far the range of a network's pool reaches. -/
theorem last_ofNetwork (n : Network) (gateway : Ipv4) :
    (ofNetwork n gateway).last = if n.length = 30 then n.top else n.top - 1 := rfl

/-- There are at least three addresses in a range. -/
theorem first_add_two_le_last {n : Network} (h : n.length ≤ 30) (gateway : Ipv4) :
    (ofNetwork n gateway).first + 2 ≤ (ofNetwork n gateway).last := by
  show n.base + 1 + 2 ≤ if n.length = 30 then n.top else n.top - 1
  rw [Network.top]
  split
  · next hlength =>
      rw [Network.size_of_length_eq hlength]
  · next hlength =>
      have hsize : 2 ^ (32 - 29) ≤ n.size := Network.pow_le_size (by omega)
      omega

/-- **A pool assigns a network's addresses** but the lowest, the gateway and, in a network of more
than four, the highest. -/
theorem assignable_ofNetwork_iff {n : Network} {gateway a : Ipv4} (h : n.length ≤ 30) :
    (ofNetwork n.truncate gateway).assignable a = true ↔
      n.Holds a ∧ a.toNat ≠ n.base ∧ a ≠ gateway ∧ (n.length < 30 → a.toNat ≠ n.top) := by
  rw [assignable, assignableNumber_iff, last_ofNetwork, Network.holds_iff, ne_eq a gateway,
    Ipv4.ext_toNat_iff]
  simp only [ofNetwork, Network.base_truncate, Network.top_truncate, Network.length_truncate]
  split <;> omega

/-- The capacity of a pool counts its assignable addresses. -/
theorem capacity_eq_ncard {pool : Pool} (h : pool.last < UInt32.size) :
    pool.capacity = {a : Ipv4 | pool.assignable a = true}.ncard := by
  rw [capacity, assignableBelow_eq_card, ← Set.ncard_coe_finset]
  have himage : Ipv4.toNat '' {a | pool.assignable a = true} =
      ((Finset.Ico pool.first (pool.last + 1)).erase pool.gateway.toNat : Finset Nat) := by
    ext n
    simp only [Set.mem_image, Set.mem_ofPred_eq, assignable, assignableNumber_iff, Finset.mem_coe,
      Finset.mem_erase, Finset.mem_Ico]
    constructor
    · rintro ⟨a, ha, rfl⟩
      omega
    · intro hn
      have hval : (Ipv4.ofNat n).toNat = n := Ipv4.toNat_ofNat (by omega)
      exact ⟨.ofNat n, by omega, hval⟩
  rw [← himage]
  exact Set.ncard_image_of_injective _ fun _ _ => Ipv4.ext_toNat

theorem capacity_ofNetwork_pos {n : Network} (h : n.length ≤ 30) (gateway : Ipv4) :
    0 < (ofNetwork n gateway).capacity := by
  have hrange := first_add_two_le_last h gateway
  simp only [capacity, assignableBelow]
  split <;> omega

/-! ## Creating a pool -/

/-- **Which pools are created**: those of networks of four addresses or more with a gateway that
lies in the network. -/
theorem create_eq_ok_iff {cidr gateway : String} {pool : Pool} :
    create cidr gateway = .ok pool ↔
      ∃ network address, Network.read? (Text.trim cidr) = some network ∧ network.length ≤ 30 ∧
        Ipv4.ofEntry? gateway = some address ∧ network.Holds address ∧
        pool = ofNetwork network.truncate address := by
  have hread : Network.read? (Text.trim cidr) = Network.ofChars? (Text.trimmed cidr.toList) := by
    rw [Network.read?, Text.trim, String.toList_ofList]
  rw [hread]
  unfold create
  dsimp only
  split
  · next hnone => simp [hnone]
  · next network hnetwork =>
      split
      · next hlong =>
          simp only [reduceCtorEq, hnetwork, Option.some.injEq, false_iff, not_exists]
          rintro _ _ ⟨rfl, hshort, -⟩
          omega
      · next hshort =>
          split
          · next hnone => simp [hnone]
          · next address haddress =>
              have hpos := capacity_ofNetwork_pos (n := network.truncate)
                (by rw [Network.length_truncate]; omega) address
              simp only [Bool.not_eq_true', hnetwork, haddress, Option.some.injEq]
              split
              · next houtside =>
                  simp only [reduceCtorEq, false_iff, not_exists]
                  rintro _ _ ⟨rfl, -, rfl, hholds, -⟩
                  rw [← Network.contains_iff, houtside] at hholds
                  cases hholds
              · next hinside =>
                  rw [Bool.not_eq_false, Network.contains_iff] at hinside
                  rw [if_neg (by omega), Except.ok.injEq]
                  constructor
                  · rintro rfl
                    exact ⟨network, address, rfl, by omega, rfl, hinside, rfl⟩
                  · rintro ⟨_, _, rfl, -, rfl, -, rfl⟩
                    rfl

end Pool

end OverlayVpn
