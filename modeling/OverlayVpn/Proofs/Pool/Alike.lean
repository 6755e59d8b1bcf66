import OverlayVpn.Proofs.Pool.Allocator

set_option autoImplicit false

/-! # Allocators that answer alike

What an allocator answers depends on its pool and on what it has reserved. Its floor, its counts and
its strategy do not show, so that sound allocators that differ in nothing else answer alike
(`allocate_alike`, `release_alike`). An allocator that has taken an address back at once is like the
one that had not handed it out (`alike_taken_back`), although its floor may have moved. -/

namespace OverlayVpn

namespace Allocator

/-- Two sound allocators have the same pool and have reserved the same. -/
structure Alike (a a' : Allocator) : Prop where
  pool : a.pool = a'.pool
  reserved : ∀ n, n ∈ a.reserved ↔ n ∈ a'.reserved
  sound : a.Sound
  sound' : a'.Sound

variable {a a' : Allocator}

theorem alike_refl (h : a.Sound) : a.Alike a := ⟨rfl, fun _ => Iff.rfl, h, h⟩

theorem mem_taken_alike (h : a.Alike a') (known : List String) (n : Nat) :
    n ∈ a.taken known ↔ n ∈ a'.taken known := by
  rw [mem_taken, mem_taken, h.reserved, h.pool]

/-- What is the lowest free number depends on which numbers are in use, not on their order. -/
theorem lowestFree_congr (pool : Pool) {used used' : List Nat} (h : ∀ n, n ∈ used ↔ n ∈ used')
    (start : Nat) : lowestFree pool used start = lowestFree pool used' start := by
  apply firstFrom_congr
  intro n _ _
  have hcontains : used.contains n = used'.contains n := by
    rw [Bool.eq_iff_iff, List.contains_iff_mem, List.contains_iff_mem]
    exact h n
  rw [hcontains]

/-- **Allocators that are alike hand the same address out**, or both none. -/
theorem allocate_alike (h : a.Alike a') (known : List String) (now now' : Timestamp) :
    (a.allocate known now).1 = (a'.allocate known now').1 ∧
      (a.allocate known now).2.Alike (a'.allocate known now').2 := by
  have hsound := sound_allocate h.sound known now
  have hsound' := sound_allocate h.sound' known now'
  have hfound : lowestFree a.pool (a.taken known) a.pool.first =
      lowestFree a'.pool (a'.taken known) a'.pool.first := by
    rw [h.pool, lowestFree_congr a'.pool (mem_taken_alike h known)]
  rw [allocate_eq h.sound] at hsound ⊢
  rw [allocate_eq h.sound'] at hsound' ⊢
  rw [hfound] at hsound ⊢
  cases hlowest : lowestFree a'.pool (a'.taken known) a'.pool.first with
  | none =>
      rw [hlowest] at hsound hsound'
      exact ⟨by rw [h.pool], h.pool, h.reserved, hsound, hsound'⟩
  | some n =>
      rw [hlowest] at hsound hsound'
      refine ⟨rfl, h.pool, fun m => ?_, hsound, hsound'⟩
      show m ∈ a.reserved.insert n ↔ m ∈ a'.reserved.insert n
      rw [List.mem_insert_iff, List.mem_insert_iff, h.reserved]

theorem release_alike (h : a.Alike a') (address : Ipv4) :
    (a.release address).2.Alike (a'.release address).2 where
  pool := by rw [pool_release, pool_release, h.pool]
  reserved n := by rw [mem_reserved_release h.sound, mem_reserved_release h.sound', h.reserved]
  sound := sound_release h.sound address
  sound' := sound_release h.sound' address

/-- To be refused an address changes counts only. -/
theorem alike_refused (h : a.Sound) {known : List String} {now : Timestamp} {fault : Pool.Fault}
    (hrefused : (a.allocate known now).1 = .error fault) : (a.allocate known now).2.Alike a := by
  rcases allocate_cases h known now with ⟨address, -, -, heq⟩ | ⟨-, heq⟩
  · rw [heq] at hrefused
    cases hrefused
  · rw [heq]
    exact ⟨rfl, fun _ => Iff.rfl, sound_refuse h, h⟩

/-- **To hand an address out and take it back** leaves an allocator that is like the one before. -/
theorem alike_taken_back (h : a.Sound) {known : List String} {now : Timestamp} {address : Ipv4}
    (hgranted : (a.allocate known now).1 = .ok (.host address)) :
    ((a.allocate known now).2.release address).2.Alike a := by
  have hsound := sound_allocate h known now
  refine ⟨by rw [pool_release, pool_allocate], fun n => ?_, sound_release hsound address, h⟩
  have hfree : address.toNat ∉ a.reserved := ((allocate_eq_ok_iff h).mp hgranted).1.2.2
  rw [mem_reserved_release hsound]
  rcases allocate_cases h known now with ⟨granted, -, -, heq⟩ | ⟨-, heq⟩
  · rw [heq] at hgranted ⊢
    have hsame : granted = address := by simpa [Network.host] using hgranted
    show n ∈ a.reserved.insert granted.toNat ∧ n ≠ address.toNat ↔ n ∈ a.reserved
    rw [hsame, List.mem_insert_iff]
    constructor
    · rintro ⟨hn | hn, hne⟩
      · exact absurd hn hne
      · exact hn
    · intro hn
      exact ⟨Or.inr hn, fun heq => hfree (heq ▸ hn)⟩
  · rw [heq] at hgranted
    cases hgranted

end Allocator

end OverlayVpn
