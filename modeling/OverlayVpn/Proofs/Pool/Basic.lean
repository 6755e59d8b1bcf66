import Mathlib.Order.Interval.Finset.Nat
import OverlayVpn.Pool.Basic

set_option autoImplicit false

/-! # The range of a pool

The range of a network's pool lies inside the 32-bit addresses, and `assignableBelow` counts the
numbers of the range below a bound that are not the gateway's. -/

namespace OverlayVpn

namespace Network

theorem size_pos (n : Network) : 0 < n.size := Nat.pow_pos (by decide)

/-- A network does not reach beyond the highest address. -/
theorem top_lt (n : Network) : n.top < UInt32.size := by
  have haddr : n.address.toNat < n.size * 2 ^ n.length := by
    have hsize : n.size * 2 ^ n.length = UInt32.size := by
      show 2 ^ (32 - n.length) * 2 ^ n.length = UInt32.size
      rw [← Nat.pow_add, Nat.sub_add_cancel n.length_le]
    rw [hsize]
    exact n.address.toNat_lt
  have hblock : n.address.toNat / n.size + 1 ≤ 2 ^ n.length := Nat.div_lt_of_lt_mul haddr
  have hpos := n.size_pos
  calc n.top < (n.address.toNat / n.size + 1) * n.size := by
        rw [top, base, Nat.add_mul, Nat.one_mul]; omega
    _ ≤ 2 ^ n.length * n.size := Nat.mul_le_mul_right _ hblock
    _ = 2 ^ (n.length + (32 - n.length)) := (Nat.pow_add 2 _ _).symm
    _ = UInt32.size := by rw [Nat.add_sub_cancel' n.length_le]; rfl

end Network

namespace Pool

theorem last_ofNetwork_lt (network : Network) (gateway : Ipv4) :
    (ofNetwork network gateway).last < UInt32.size := by
  have htop := network.top_lt
  simp only [ofNetwork]
  split <;> omega

/-- **A pool's range ends inside the addresses.** -/
theorem last_lt_of_create {cidr gateway : String} {pool : Pool}
    (h : create cidr gateway = .ok pool) : pool.last < UInt32.size := by
  unfold create at h
  grind [last_ofNetwork_lt]

theorem assignableNumber_iff {pool : Pool} {n : Nat} :
    pool.assignableNumber n = true ↔ pool.first ≤ n ∧ n ≤ pool.last ∧ n ≠ pool.gateway.toNat := by
  simp [assignableNumber, and_assoc]

/-- The count of the assignable numbers below a bound. -/
theorem assignableBelow_eq_card (pool : Pool) (stop : Nat) :
    pool.assignableBelow stop = ((Finset.Ico pool.first stop).erase pool.gateway.toNat).card := by
  rw [Finset.card_erase_eq_ite, Nat.card_Ico]
  simp only [assignableBelow, gatewayWithin, Finset.mem_Ico, Bool.and_eq_true, decide_eq_true_eq]

end Pool

end OverlayVpn
