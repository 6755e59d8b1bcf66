import Mathlib.Data.Fintype.EquivFin
import OverlayVpn.Proofs.Pool.Allocator

set_option autoImplicit false

/-! # An allocator that callers share

Callers take addresses of one allocator and give them back, each at most one at a time. `Leases`
says which addresses they have: the allocator has reserved these on top of what it had reserved
before the callers came, and no two callers have one address. While there are as many free
addresses as callers, a caller without an address gets one (`Leases.allocate`), whatever the others
have. -/

namespace OverlayVpn

namespace Allocator

variable {ι : Type}

/-- What callers have leased since the allocator was `start`. -/
structure Leases (start : Allocator) (leases : ι → Option Ipv4) (a : Allocator) : Prop where
  sound : a.Sound
  pool_eq : a.pool = start.pool
  mem_reserved : ∀ m, m ∈ a.reserved ↔
    m ∈ start.reserved ∨ ∃ i address, leases i = some address ∧ address.toNat = m
  fresh : ∀ i address, leases i = some address → address.toNat ∉ start.reserved
  apart : ∀ i j address, leases i = some address → leases j = some address → i = j

variable {start a : Allocator} {leases : ι → Option Ipv4}

theorem leases_none (h : start.Sound) : Leases start (fun _ : ι => none) start where
  sound := h
  pool_eq := rfl
  mem_reserved := by simp
  fresh := by simp
  apart := by simp

/-- Among as many addresses as there are callers, one is nobody's as long as a caller has none. -/
theorem exists_not_leased [Finite ι] {free : ι → Ipv4} (hfree : Function.Injective free) {i : ι}
    (hnone : leases i = none) : ∃ j, ∀ l, leases l ≠ some (free j) := by
  by_contra hall
  have howner : ∀ j, ∃ l, leases l = some (free j) := by
    intro j
    by_contra hno
    exact hall ⟨j, fun l hl => hno ⟨l, hl⟩⟩
  choose owner howns using howner
  have hinjective : Function.Injective owner := by
    intro j j' hsame
    have hj := howns j
    rw [hsame, howns j'] at hj
    exact (hfree (Option.some.inj hj)).symm
  -- an injection of the callers into themselves leaves nobody out
  obtain ⟨j, hj⟩ := Finite.surjective_of_injective hinjective i
  have howned := howns j
  rw [hj, hnone] at howned
  cases howned

/-- While a caller has no address, there is one for it: the others have fewer than are free. -/
theorem Leases.exists_free [Finite ι] (h : Leases start leases a) {known known' : List String}
    {free : ι → Ipv4} (hinjective : Function.Injective free)
    (hfree : ∀ j, start.Free known (free j)) {i : ι} (hnone : leases i = none)
    (hknown : ∀ entry ∈ known', entry ∈ known ∨
      ∃ l address, leases l = some address ∧ entry = (Network.host address).text) :
    ∃ address, a.Free known' address := by
  obtain ⟨j, hj⟩ := exists_not_leased hinjective hnone
  obtain ⟨hassign, hunknown, hunreserved⟩ := hfree j
  refine ⟨free j, ?_, ?_, ?_⟩
  · rw [h.pool_eq]
    exact hassign
  · intro entry hentry hnamed
    rcases hknown entry hentry with hbefore | ⟨l, address, hleased, rfl⟩
    · exact hunknown entry hbefore hnamed
    · rw [Network.ofEntry?_host] at hnamed
      exact hj l (hleased.trans hnamed)
  · intro hmem
    rcases (h.mem_reserved _).mp hmem with hbefore | ⟨l, address, hleased, hsame⟩
    · exact hunreserved hbefore
    · obtain rfl := Ipv4.ext_toNat hsame
      exact hj l hleased

variable [DecidableEq ι]

/-- Who has which address after one caller's address has changed. -/
theorem update_eq_some_iff {i l : ι} {leased : Option Ipv4} {address : Ipv4} :
    Function.update leases i leased l = some address ↔
      (l = i ∧ leased = some address) ∨ (l ≠ i ∧ leases l = some address) := by
  by_cases hl : l = i
  · subst hl
    simp
  · rw [Function.update_of_ne hl]
    simp [hl]

/-- **A caller without an address is granted one** that nobody else has. -/
theorem Leases.grant (h : Leases start leases a) {i : ι} (hnone : leases i = none)
    {known : List String} {address : Ipv4} (hfree : a.Free known address) (now : Timestamp) :
    Leases start (Function.update leases i (some address)) (a.grant address.toNat now) := by
  have hfresh : address.toNat ∉ start.reserved :=
    fun hmem => hfree.2.2 ((h.mem_reserved _).mpr (Or.inl hmem))
  have hnobody : ∀ l, leases l ≠ some address :=
    fun l hl => hfree.2.2 ((h.mem_reserved _).mpr (Or.inr ⟨l, address, hl, rfl⟩))
  refine ⟨sound_grant h.sound hfree.1 now, h.pool_eq, ?_, ?_, ?_⟩
  · -- the reservations grow by the caller's address
    intro m
    rw [Allocator.grant, List.mem_insert_iff, h.mem_reserved]
    simp only [update_eq_some_iff]
    constructor
    · rintro (rfl | hbefore | ⟨l, x, hl, hm⟩)
      · exact Or.inr ⟨i, address, Or.inl ⟨rfl, rfl⟩, rfl⟩
      · exact Or.inl hbefore
      · have hne : l ≠ i := by
          rintro rfl
          rw [hnone] at hl
          cases hl
        exact Or.inr ⟨l, x, Or.inr ⟨hne, hl⟩, hm⟩
    · rintro (hbefore | ⟨l, x, ⟨-, hx⟩ | ⟨-, hl⟩, hm⟩)
      · exact Or.inr (Or.inl hbefore)
      · obtain rfl := Option.some.inj hx
        exact Or.inl hm.symm
      · exact Or.inr (Or.inr ⟨l, x, hl, hm⟩)
  · intro l x hl
    rcases update_eq_some_iff.mp hl with ⟨-, hx⟩ | ⟨-, hl⟩
    · obtain rfl := Option.some.inj hx
      exact hfresh
    · exact h.fresh l x hl
  · -- of two callers with one address, either both have it anew or neither has
    intro l l' x hl hl'
    rcases update_eq_some_iff.mp hl with ⟨hli, hx⟩ | ⟨-, hl⟩
    · obtain rfl := Option.some.inj hx
      rcases update_eq_some_iff.mp hl' with ⟨hli', -⟩ | ⟨-, hl'⟩
      · rw [hli, hli']
      · exact absurd hl' (hnobody l')
    · rcases update_eq_some_iff.mp hl' with ⟨-, hx⟩ | ⟨-, hl'⟩
      · obtain rfl := Option.some.inj hx
        exact absurd hl (hnobody l)
      · exact h.apart l l' x hl hl'

/-- **A caller without an address gets one** from the allocator as it stands, if there are as many
free addresses as callers: the allocator succeeds, with an address that nobody has. -/
theorem Leases.allocate [Finite ι] (h : Leases start leases a) {known known' : List String}
    {free : ι → Ipv4} (hinjective : Function.Injective free)
    (hfree : ∀ j, start.Free known (free j)) {i : ι} (hnone : leases i = none)
    (hknown : ∀ entry ∈ known', entry ∈ known ∨
      ∃ l address, leases l = some address ∧ entry = (Network.host address).text)
    (now : Timestamp) :
    ∃ address, a.allocate known' now = (.ok (.host address), a.grant address.toNat now) ∧
      Leases start (Function.update leases i (some address)) (a.grant address.toNat now) := by
  obtain ⟨other, hother⟩ := h.exists_free hinjective hfree hnone hknown
  rcases allocate_cases h.sound known' now with
    ⟨address, hgranted, -, hallocated⟩ | ⟨hexhausted, -⟩
  · exact ⟨address, hallocated, h.grant hnone hgranted now⟩
  · exact absurd hother (hexhausted other)

/-- **A caller that gives its address back** leaves the others theirs. -/
theorem Leases.release (h : Leases start leases a) {i : ι} {address : Ipv4}
    (hleased : leases i = some address) :
    Leases start (Function.update leases i none) (a.release address).2 where
  sound := sound_release h.sound address
  pool_eq := by rw [pool_release, h.pool_eq]
  mem_reserved := by
    intro m
    rw [mem_reserved_release h.sound, h.mem_reserved]
    simp only [update_eq_some_iff]
    constructor
    · rintro ⟨hbefore | ⟨l, x, hl, hm⟩, hne⟩
      · exact Or.inl hbefore
      · have hli : l ≠ i := by
          rintro rfl
          obtain rfl := Option.some.inj (hleased.symm.trans hl)
          exact hne hm.symm
        exact Or.inr ⟨l, x, Or.inr ⟨hli, hl⟩, hm⟩
    · -- what stays is not the address given back: that was fresh, and is nobody else's
      rintro (hbefore | ⟨l, x, ⟨-, hx⟩ | ⟨hli, hl⟩, hm⟩)
      · refine ⟨Or.inl hbefore, ?_⟩
        rintro rfl
        exact h.fresh i address hleased hbefore
      · cases hx
      · refine ⟨Or.inr ⟨l, x, hl, hm⟩, ?_⟩
        rintro rfl
        obtain rfl := Ipv4.ext_toNat hm
        exact hli (h.apart l i x hl hleased)
  fresh := by
    intro l x hl
    rcases update_eq_some_iff.mp hl with ⟨-, hx⟩ | ⟨-, hl⟩
    · cases hx
    · exact h.fresh l x hl
  apart := by
    intro l l' x hl hl'
    rcases update_eq_some_iff.mp hl with ⟨-, hx⟩ | ⟨-, hl⟩
    · cases hx
    · rcases update_eq_some_iff.mp hl' with ⟨-, hx⟩ | ⟨-, hl'⟩
      · cases hx
      · exact h.apart l l' x hl hl'

end Allocator

end OverlayVpn
