import OverlayVpn.Proofs.Control.Runs
import OverlayVpn.Rehearsal.Stage

set_option autoImplicit false

/-! # No address is held twice

A key holds the address of its record and those that the backend's peer is allowed. The registry's
file, its memory, the allocator and the backend are changed one after another, and each change may
fail while the others stand; a new process keeps only the file. What carries through all of this
is `Separate`: every entry that is held names an assignable address, this address is reserved or
recorded, and no other key holds it. An address that is handed out is neither reserved nor
recorded, so that nobody holds it. -/

namespace OverlayVpn

namespace Plane

variable {ω δ : Type}

/-- A key holds an entry: its record has it, or a peer that the backend lists is allowed it. -/
def Holds {β : Type} (b : Backend β) (p : Plane β) (key entry : String) : Prop :=
  (∃ record, p.registry.peers.get? key = some record ∧ record.allowedAddress = entry) ∨
    ∃ peer ∈ b.knownPeers p.backend, peer.publicKey = key ∧ entry ∈ peer.allowedAddresses

/-- A record has an entry. -/
def Recorded {β : Type} (p : Plane β) (entry : String) : Prop :=
  ∃ key record, p.registry.peers.get? key = some record ∧ record.allowedAddress = entry

/-- Holding by the keys under which records and peers are kept. -/
def Held (p : Plane (EngineTunnel δ × ω)) (key entry : String) : Prop :=
  (∃ record, p.registry.peers.get? key = some record ∧ record.allowedAddress = entry) ∨
    ∃ peer, p.backend.1.peers.get? key = some peer ∧ entry ∈ peer.allowedAddresses

/-- What keeps the addresses of a pool apart. -/
structure Separate (pool : Pool) (p : Plane (EngineTunnel δ × ω)) : Prop where
  sound : p.allocator.Sound
  pool_eq : p.allocator.pool = pool
  stored : p.IsStored
  named : ∀ key peer, p.backend.1.peers.get? key = some peer → peer.publicKey = key
  covered : ∀ key entry, Held p key entry → ∃ a, entry = (Network.host a).text ∧
    p.allocator.pool.assignable a = true ∧ (a.toNat ∈ p.allocator.reserved ∨ Recorded p entry)
  unique : ∀ k₁ k₂ entry, Held p k₁ entry → Held p k₂ entry → k₁ = k₂

variable {e : Engine ω δ} {pool : Pool} {p q : Plane (EngineTunnel δ × ω)}

/-! ## Changes of the backend alone -/

/-- A backend that loses peers, or takes peers from records, holds nothing new. -/
theorem Separate.of_tunnel (h : Separate pool p) (hstored : q.IsStored)
    (hpeers : q.registry.peers = p.registry.peers) (hsound : q.allocator.Sound)
    (hpool : q.allocator.pool = p.allocator.pool)
    (hreserved : ∀ n ∈ p.allocator.reserved, n ∈ q.allocator.reserved)
    (htunnel : ∀ key peer, q.backend.1.peers.get? key = some peer →
      p.backend.1.peers.get? key = some peer ∨ ∃ record,
        p.registry.peers.get? key = some record ∧
          peer = ⟨key, [record.allowedAddress], none, none⟩) : Separate pool q := by
  have hheld : ∀ key entry, Held q key entry → Held p key entry := by
    rintro key entry (⟨record, hrecord, hentry⟩ | ⟨peer, hpeer, hentry⟩)
    · rw [hpeers] at hrecord
      exact Or.inl ⟨record, hrecord, hentry⟩
    · rcases htunnel key peer hpeer with hbefore | ⟨record, hrecord, rfl⟩
      · exact Or.inr ⟨peer, hbefore, hentry⟩
      · exact Or.inl ⟨record, hrecord, (List.mem_singleton.mp hentry).symm⟩
  refine ⟨hsound, hpool.trans h.pool_eq, hstored, fun key peer hpeer => ?_, fun key entry hq => ?_,
    fun k₁ k₂ entry h₁ h₂ => ?_⟩
  · rcases htunnel key peer hpeer with hbefore | ⟨record, -, rfl⟩
    · exact h.named key peer hbefore
    · rfl
  · obtain ⟨a, hentry, hassign, hcovered⟩ := h.covered key entry (hheld key entry hq)
    refine ⟨a, hentry, by rw [hpool]; exact hassign, ?_⟩
    rw [Recorded, hpeers]
    exact hcovered.imp_left (hreserved a.toNat)
  · exact h.unique k₁ k₂ entry (hheld k₁ entry h₁) (hheld k₂ entry h₂)

/-! ## A new client -/

/-- Nobody holds an address that is free. -/
theorem Separate.not_held_of_free (h : Separate pool p) {a : Ipv4}
    (hfree : p.allocator.Free p.registry.addresses a) (key : String) :
    ¬Held p key (Network.host a).text := by
  intro hheld
  obtain ⟨-, hknown, hreserved⟩ := hfree
  obtain ⟨a', heq, -, hcovered⟩ := h.covered key _ hheld
  obtain rfl := Network.host_text_inj heq
  rcases hcovered with hmem | ⟨other, record, hrecord, hentry⟩
  · exact hreserved hmem
  · refine hknown record.allowedAddress ?_ ?_
    · exact List.mem_map.mpr ⟨record, KeyMap.mem_values_iff.mpr ⟨other, hrecord⟩, rfl⟩
    · rw [hentry, Network.ofEntry?_host]

/-- What a lease is: the lowest free address, which is then reserved; or none is free. -/
theorem lease_cases (h : p.allocator.Sound) :
    (∃ a, p.allocator.Free p.registry.addresses a ∧ p.lease.1 = .ok (.host a) ∧
      p.lease.2.allocator = p.allocator.grant a.toNat p.host.clock.read.1) ∨
    (∃ fault, p.lease.1 = .error fault ∧ p.lease.2.allocator = p.allocator.refuse) := by
  rcases Allocator.allocate_cases h p.registry.addresses p.host.clock.read.1 with
    ⟨a, hfree, -, heq⟩ | ⟨-, heq⟩
  · exact Or.inl ⟨a, hfree, congrArg Prod.fst heq, congrArg Prod.snd heq⟩
  · exact Or.inr ⟨_, congrArg Prod.fst heq, congrArg Prod.snd heq⟩

section

variable {key : String} {a : Ipv4}
  (htunnel : q.backend.1.peers =
    p.backend.1.peers.insert key ⟨key, [(Network.host a).text], none, none⟩)
  (hregistry : (∃ record : RegisteredPeer, record.allowedAddress = (Network.host a).text ∧
      q.registry.peers = p.registry.peers.insert key record) ∨
    q.registry.peers = p.registry.peers)

include htunnel hregistry in
/-- What is held with a new client was held before, or is the client's. -/
theorem held_of_insert {k entry : String} (h : Held q k entry) :
    (k = key ∧ entry = (Network.host a).text) ∨ Held p k entry := by
  rcases h with ⟨record, hrecord, hentry⟩ | ⟨peer, hpeer, hentry⟩
  · rcases hregistry with ⟨record', haddress, hpeers⟩ | hpeers
    · rw [hpeers, KeyMap.get?_insert] at hrecord
      split at hrecord
      · next hkey =>
          obtain rfl := Option.some.inj hrecord
          exact Or.inl ⟨hkey, by rw [← hentry, haddress]⟩
      · exact Or.inr (Or.inl ⟨record, hrecord, hentry⟩)
    · rw [hpeers] at hrecord
      exact Or.inr (Or.inl ⟨record, hrecord, hentry⟩)
  · rw [htunnel, KeyMap.get?_insert] at hpeer
    split at hpeer
    · next hkey =>
        obtain rfl := Option.some.inj hpeer
        exact Or.inl ⟨hkey, List.mem_singleton.mp hentry⟩
    · exact Or.inr (Or.inr ⟨peer, hpeer, hentry⟩)

include hregistry in
/-- A client that was not recorded takes no record away. -/
theorem recorded_of_insert (hnone : p.registry.peers.get? key = none) {entry : String}
    (h : Recorded p entry) : Recorded q entry := by
  obtain ⟨other, record, hrecord, hentry⟩ := h
  refine ⟨other, record, ?_, hentry⟩
  rcases hregistry with ⟨record', -, hpeers⟩ | hpeers
  · have hne : other ≠ key := by
      rintro rfl
      rw [hnone] at hrecord
      cases hrecord
    rw [hpeers, KeyMap.get?_insert_of_ne _ _ hne, hrecord]
  · rw [hpeers, hrecord]

include htunnel hregistry in
/-- **A new client holds a free address alone.** It may be that the client is not written down. -/
theorem Separate.of_insert (h : Separate pool p) (hnone : p.registry.peers.get? key = none)
    (hfree : p.allocator.Free p.registry.addresses a) (hstored : q.IsStored)
    (hallocator : q.allocator = p.allocator.grant a.toNat p.host.clock.read.1) :
    Separate pool q := by
  refine ⟨?_, ?_, hstored, ?_, ?_, ?_⟩
  · rw [hallocator]
    exact Allocator.sound_grant h.sound hfree.1 _
  · rw [hallocator, Allocator.pool_grant, h.pool_eq]
  · -- named: the new peer is kept under its key
    intro k peer hpeer
    rw [htunnel, KeyMap.get?_insert] at hpeer
    split at hpeer
    · next hkey =>
        obtain rfl := Option.some.inj hpeer
        exact hkey.symm
    · exact h.named k peer hpeer
  · -- covered: the new address is reserved, and nothing else is released
    intro k entry hq
    rw [hallocator]
    rcases held_of_insert htunnel hregistry hq with ⟨-, hentry⟩ | hbefore
    · exact ⟨a, hentry, hfree.1, Or.inl (List.mem_insert_iff.mpr (Or.inl rfl))⟩
    · obtain ⟨a', hentry, hassign, hcovered⟩ := h.covered k entry hbefore
      refine ⟨a', hentry, hassign, ?_⟩
      rcases hcovered with hmem | hrecorded
      · exact Or.inl (List.mem_insert_iff.mpr (Or.inr hmem))
      · exact Or.inr (recorded_of_insert hregistry hnone hrecorded)
  · -- unique: nobody held the new client's address before
    intro k₁ k₂ entry h₁ h₂
    rcases held_of_insert htunnel hregistry h₁ with ⟨hk₁, rfl⟩ | hbefore₁
    · rcases held_of_insert htunnel hregistry h₂ with ⟨hk₂, -⟩ | hbefore₂
      · rw [hk₁, hk₂]
      · exact absurd hbefore₂ (h.not_held_of_free hfree k₂)
    · rcases held_of_insert htunnel hregistry h₂ with ⟨-, rfl⟩ | hbefore₂
      · exact absurd hbefore₁ (h.not_held_of_free hfree k₁)
      · exact h.unique k₁ k₂ entry hbefore₁ hbefore₂

end

/-! ## A client less -/

section

variable (key : String) (hallocator : q.allocator =
    match (p.registry.peers.get? key).bind fun r => Ipv4.ofEntry? r.allowedAddress with
    | some a => (p.allocator.release a).2
    | none => p.allocator)
  (htunnel : q.backend.1.peers = p.backend.1.peers.erase key)
  (hregistry : q.registry.peers = p.registry.peers.erase key ∨ q.registry.peers = p.registry.peers)

include htunnel hregistry in
/-- What is held after a removal was held before; what the removed key still holds is recorded. -/
theorem held_of_erase {k entry : String} (h : Held q k entry) :
    Held p k entry ∧ (k = key → Recorded q entry) := by
  rcases h with ⟨record, hrecord, hentry⟩ | ⟨peer, hpeer, hentry⟩
  · refine ⟨Or.inl ⟨record, ?_, hentry⟩, fun _ => ⟨k, record, hrecord, hentry⟩⟩
    rcases hregistry with hpeers | hpeers
    · rw [hpeers, KeyMap.get?_erase] at hrecord
      split at hrecord
      · cases hrecord
      · exact hrecord
    · rwa [hpeers] at hrecord
  · rw [htunnel, KeyMap.get?_erase] at hpeer
    split at hpeer
    · cases hpeer
    · next hne => exact ⟨Or.inr ⟨peer, hpeer, hentry⟩, fun hkey => absurd hkey hne⟩

include hallocator in
/-- An address that the removed key does not hold stays reserved. -/
theorem Separate.reserved_of_erase (h : Separate pool p) {a : Ipv4}
    (hmem : a.toNat ∈ p.allocator.reserved) (hother : ¬Held p key (Network.host a).text) :
    a.toNat ∈ q.allocator.reserved := by
  rw [hallocator]
  split
  · next released hreleased =>
      rw [Allocator.mem_reserved_release h.sound]
      refine ⟨hmem, fun hsame => hother ?_⟩
      obtain rfl := Ipv4.ext_toNat hsame
      obtain ⟨record, hrecord, hparse⟩ := Option.bind_eq_some_iff.mp hreleased
      obtain ⟨a', heq, -, -⟩ := h.covered key record.allowedAddress
        (Or.inl ⟨record, hrecord, rfl⟩)
      rw [heq, Network.ofEntry?_host] at hparse
      obtain rfl := Option.some.inj hparse
      exact Or.inl ⟨record, hrecord, heq⟩
  · exact hmem

include hallocator htunnel hregistry in
/-- **A client that is removed gives up its own address only.** It may be that the client is not
struck out; its record then keeps the address. -/
theorem Separate.of_erase (h : Separate pool p) (hstored : q.IsStored) : Separate pool q := by
  have hothers : ∀ k, k ≠ key → q.registry.peers.get? k = p.registry.peers.get? k := by
    intro k hne
    rcases hregistry with hpeers | hpeers
    · rw [hpeers, KeyMap.get?_erase_of_ne _ hne]
    · rw [hpeers]
  have hpool : q.allocator.pool = p.allocator.pool := by
    rw [hallocator]
    split
    · exact Allocator.pool_release _ _
    · rfl
  refine ⟨?_, hpool.trans h.pool_eq, hstored, ?_, ?_, ?_⟩
  · rw [hallocator]
    split
    · exact Allocator.sound_release h.sound _
    · exact h.sound
  · intro k peer hpeer
    rw [htunnel, KeyMap.get?_erase] at hpeer
    split at hpeer
    · cases hpeer
    · exact h.named k peer hpeer
  · -- covered: what the removed key still holds is recorded
    intro k entry hq
    obtain ⟨hbefore, hkept⟩ := held_of_erase key htunnel hregistry hq
    obtain ⟨a, rfl, hassign, hcovered⟩ := h.covered k entry hbefore
    refine ⟨a, rfl, by rw [hpool]; exact hassign, ?_⟩
    by_cases hkey : k = key
    · exact Or.inr (hkept hkey)
    · -- what another key holds is neither the record of this one nor the address taken back
      have hother : ¬Held p key (Network.host a).text :=
        fun hheld => hkey (h.unique k key _ hbefore hheld)
      rcases hcovered with hmem | ⟨other, record, hrecord, haddress⟩
      · exact Or.inl (h.reserved_of_erase key hallocator hmem hother)
      · have hne : other ≠ key := by
          rintro rfl
          exact hother (Or.inl ⟨record, hrecord, haddress⟩)
        exact Or.inr ⟨other, record, by rw [hothers other hne, hrecord], haddress⟩
  · intro k₁ k₂ entry h₁ h₂
    exact h.unique k₁ k₂ entry (held_of_erase key htunnel hregistry h₁).1
      (held_of_erase key htunnel hregistry h₂).1

end

/-! ## A new process -/

/-- **A new process holds what its registry records.** -/
theorem Separate.of_records (h : Separate pool p) (hstored : q.IsStored)
    (hpeers : q.registry.peers = p.registry.peers) (hsound : q.allocator.Sound)
    (hpool : q.allocator.pool = p.allocator.pool) (htunnel : q.backend.1 = {}) : Separate pool q := by
  have hheld : ∀ key entry, Held q key entry → Held p key entry ∧ Recorded q entry := by
    rintro key entry (⟨record, hrecord, hentry⟩ | ⟨peer, hpeer, -⟩)
    · exact ⟨Or.inl ⟨record, hpeers ▸ hrecord, hentry⟩, key, record, hrecord, hentry⟩
    · rw [htunnel] at hpeer
      cases hpeer
  refine ⟨hsound, hpool.trans h.pool_eq, hstored, fun key peer hpeer => ?_, fun key entry hq => ?_,
    fun k₁ k₂ entry h₁ h₂ => ?_⟩
  · rw [htunnel] at hpeer
    cases hpeer
  · -- covered: reservations are forgotten, records are not
    obtain ⟨hbefore, hrecorded⟩ := hheld key entry hq
    obtain ⟨a, hentry, hassign, -⟩ := h.covered key entry hbefore
    exact ⟨a, hentry, by rw [hpool]; exact hassign, Or.inr hrecorded⟩
  · exact h.unique k₁ k₂ entry (hheld k₁ entry h₁).1 (hheld k₂ entry h₂).1

theorem separate_restart (h : Separate pool p) (world : ω) :
    Separate pool (p.restart fun _ => ({}, world)).2 := by
  unfold restart
  have hstored := Registry.stored_openAt h.stored
  split
  · -- the registry cannot be opened, and no process takes over
    next fault disk hopen =>
      rw [hopen] at hstored
      exact h.of_tunnel hstored rfl h.sound rfl (fun _ hn => hn) fun _ _ hpeer => Or.inl hpeer
  · next registry disk hopen =>
      have hregistry : registry = ⟨p.registry.path, p.registry.peers⟩ :=
        Registry.openAt_of_stored h.stored (by rw [hopen])
      rw [hopen] at hstored
      subst hregistry
      exact h.of_records hstored rfl (Allocator.sound_create h.sound.last_lt _) rfl rfl

/-! ## One call -/

/-- The allocator of a registration that was given an address. -/
theorem lease_of_ok {address : Ipv4} (h : p.allocator.Sound)
    (hlease : p.lease.1 = .ok (.host address)) :
    p.allocator.Free p.registry.addresses address ∧
      p.lease.2.allocator = p.allocator.grant address.toNat p.host.clock.read.1 := by
  rcases lease_cases h with ⟨a, hfree, hok, hallocator⟩ | ⟨fault, herror, -⟩
  · rw [hok] at hlease
    obtain rfl : a = address := congrArg Network.address (Except.ok.inj hlease)
    exact ⟨hfree, hallocator⟩
  · rw [herror] at hlease
    cases hlease

/-- An address that the backend refused to take up is free again. -/
theorem separate_registerFailed (h : Separate pool p) {key : String} {address : Ipv4}
    {fault : BackendFault} {backend : EngineTunnel δ × ω}
    (hlease : p.lease.1 = .ok (.host address))
    (htold : (EngineTunnel.backend e).allowPeer key [(Network.host address).text] p.backend =
      (.error fault, backend)) :
    Separate pool ({ p.lease.2 with backend }.released (some address)) := by
  obtain ⟨hfree, hallocator⟩ := lease_of_ok h.sound hlease
  have hgranted := Allocator.sound_grant h.sound hfree.1 p.host.clock.read.1
  have htunnel : backend.1 = p.backend.1 := EngineTunnel.tunnel_of_notTold htold
  generalize hleased : p.lease.2 = l at hallocator
  have hregistry : l.registry = p.registry := by rw [← hleased, registry_lease]
  have hdisk : l.host.disk = p.host.disk := by rw [← hleased, disk_lease]
  refine h.of_tunnel ?_ ?_ ?_ ?_ ?_ fun k peer hpeer => Or.inl ?_
  · rw [IsStored, host_released, registry_released, hdisk, hregistry]
    exact h.stored
  · rw [registry_released, hregistry]
  · rw [allocator_released, hallocator]
    exact Allocator.sound_release hgranted address
  · rw [allocator_released, hallocator, Allocator.pool_release, Allocator.pool_grant]
  · -- what was reserved before is not the address that was granted and taken back
    intro n hn
    rw [allocator_released, hallocator, Allocator.mem_reserved_release hgranted]
    refine ⟨List.mem_insert_iff.mpr (Or.inr hn), ?_⟩
    rintro rfl
    exact hfree.2.2 hn
  · rwa [backend_released, htunnel] at hpeer

/-- An address that was taken up is held by the new client alone. -/
theorem separate_registered (h : Separate pool p) {key : String} {address : Ipv4}
    {backend : EngineTunnel δ × ω} (hrecord : p.registry.peers.get? key = none)
    (hlease : p.lease.1 = .ok (.host address))
    (htold : (EngineTunnel.backend e).allowPeer key [(Network.host address).text] p.backend =
      (.ok (), backend))
    (hq : q = { p.lease.2 with backend }.recorded key (Network.host address).text) :
    Separate pool (q.registeredAt key).2 := by
  obtain ⟨hfree, hallocator⟩ := lease_of_ok h.sound hlease
  have htunnel := EngineTunnel.tunnel_of_told htold
  generalize hleased : p.lease.2 = l at hallocator hq
  have hpeers : l.registry = p.registry := by rw [← hleased, registry_lease]
  have hdisk : l.host.disk = p.host.disk := by rw [← hleased, disk_lease]
  have hbefore : ({ l with backend } : Plane (EngineTunnel δ × ω)).IsStored := by
    rw [IsStored, hdisk, hpeers]
    exact h.stored
  have hstored : q.IsStored := by
    rw [hq]
    exact hbefore.recorded key _
  have hregistry := peers_recorded (p := { l with backend }) (by rw [hpeers]; exact hrecord)
    (Network.host address).text
  rw [← hq, hpeers] at hregistry
  refine Separate.of_insert ?_ ?_ h hrecord hfree ?_ ?_
  · rw [backend_registeredAt, hq, backend_recorded, htunnel]
  · rw [registry_registeredAt]
    exact hregistry
  · rw [IsStored, disk_registeredAt, registry_registeredAt]
    exact hstored
  · rw [allocator_registeredAt, hq, allocator_recorded, hallocator]

/-- A client that the backend has dropped gives up its address. -/
theorem separate_erased (h : Separate pool p) {key : String} {backend : EngineTunnel δ × ω}
    (hdropped : (EngineTunnel.backend e).erasePeer key p.backend = (.ok (), backend)) :
    Separate pool (({ p with backend }.struck key).released
      ((p.registry.peers.get? key).bind fun r => Ipv4.ofEntry? r.allowedAddress)) := by
  have hstored : ({ p with backend }.struck key).IsStored := IsStored.struck h.stored key
  refine Separate.of_erase key ?_ ?_ ?_ h ?_
  · cases (p.registry.peers.get? key).bind fun r => Ipv4.ofEntry? r.allowedAddress with
    | none => rfl
    | some address => rw [allocator_released, allocator_struck]
  · rw [backend_released, backend_struck, EngineTunnel.tunnel_of_dropped hdropped]
  · rw [registry_released]
    exact peers_struck { p with backend } key
  · rw [IsStored, registry_released, host_released]
    exact hstored

/-- **Each call that adds no client of its own choice keeps addresses apart.** -/
theorem separate_outcome {call : Call} {reply : Reply} (h : Separate pool p)
    (houtcome : Outcome (EngineTunnel.backend e) p call reply q)
    (hcall : ∀ key address, call ≠ .insertClient key address) : Separate pool q := by
  -- a backend that keeps the peers it had, or forgets them all
  have hsame : ∀ {b' : EngineTunnel δ × ω} {running : Option ServerRun},
      b'.1.peers = p.backend.1.peers ∨ b'.1 = {} → Separate pool { p with backend := b', running } := by
    intro b' running htunnel
    refine h.of_tunnel h.stored rfl h.sound rfl (fun _ hn => hn) fun key peer hpeer => Or.inl ?_
    rcases htunnel with hpeers | hempty
    · rwa [hpeers] at hpeer
    · rw [hempty] at hpeer
      cases hpeer
  cases houtcome with
  | refused hrefusal => exact h
  | startFailed hstopped hstart =>
      exact hsame (Or.inl (by rw [EngineTunnel.tunnel_of_startFailed hstart]))
  | @started config publicKey backend hstopped hvalid hstart =>
      obtain ⟨device, htunnel⟩ := EngineTunnel.tunnel_of_started hstart
      obtain ⟨peers, heq, hrestored, -⟩ := restore_cases e p.registry.peers.entries backend
      rw [htunnel] at heq hrestored
      refine h.of_tunnel h.stored rfl h.sound rfl (fun _ hn => hn) fun key peer hpeer => Or.inr ?_
      simp only [launched, heq] at hpeer
      rcases hrestored.recorded key peer hpeer with hbefore | ⟨record, hmem, hpeer'⟩
      · cases hbefore
      · exact ⟨record, KeyMap.mem_entries_iff.mp hmem, hpeer'⟩
  | idle hstopped => exact h
  | stopped hrunning hstop =>
      rcases EngineTunnel.tunnel_of_stop hstop with htunnel | ⟨-, htunnel⟩
      · exact hsame (Or.inr htunnel)
      · exact hsame (Or.inl (by rw [htunnel]))
  | aborted hrunning hstop => exact hsame (Or.inr (EngineTunnel.tunnel_abort e _))
  | knownFailed hrunning hrecord htold =>
      exact hsame (Or.inl (by rw [EngineTunnel.tunnel_of_notTold htold]))
  | @known key running record backend hrunning hrecord htold =>
      -- the peer that is told takes its address from the record
      refine h.of_tunnel h.stored rfl h.sound rfl (fun _ hn => hn) fun k peer hpeer => ?_
      simp only [EngineTunnel.tunnel_of_told htold, KeyMap.get?_insert] at hpeer
      split at hpeer
      · next hkey =>
          obtain rfl := Option.some.inj hpeer
          exact Or.inr ⟨record, by rw [hkey]; exact hrecord, by rw [hkey]⟩
      · exact Or.inl hpeer
  | exhausted hrunning hrecord hlease =>
      rcases lease_cases h.sound with ⟨a, -, hok, -⟩ | ⟨fault, -, hallocator⟩
      · rw [hok] at hlease
        cases hlease
      · refine h.of_tunnel h.stored rfl ?_ ?_ ?_ fun _ _ hpeer => Or.inl hpeer
        · rw [hallocator]; exact Allocator.sound_refuse h.sound
        · rw [hallocator, Allocator.pool_refuse]
        · rw [hallocator]; exact fun _ hn => hn
  | registerFailed hrunning hrecord hlease htold => exact separate_registerFailed h hlease htold
  | registered hrunning hrecord hlease htold hq => exact separate_registered h hrecord hlease htold hq
  | insertFailed hrunning hhost hrecord htold => exact absurd rfl (hcall _ _)
  | inserted hrunning hhost hrecord htold => exact absurd rfl (hcall _ _)
  | eraseFailed hrunning hdropped =>
      exact hsame (Or.inl (by rw [EngineTunnel.tunnel_of_notDropped hdropped]))
  | erased hrunning hdropped => exact separate_erased h hdropped
  | clients hrunning => exact h

/-! ## Runs -/

theorem separate_after (h : Separate pool p) {event : Event ω}
    (hevent : ∀ key address, event ≠ .call (.insertClient key address)) :
    Separate pool (p.after e event) := by
  cases event with
  | call c =>
      refine separate_outcome h (outcome_perform (EngineTunnel.backend e) p c) ?_
      intro key address hcall
      exact hevent key address (congrArg Event.call hcall)
  | restart world => exact separate_restart h world

theorem separate_afterAll {events : List (Event ω)} (h : Separate pool p)
    (hevents : ∀ key address, Event.call (.insertClient key address) ∉ events) :
    Separate pool (p.afterAll e events) := by
  induction events generalizing p with
  | nil => exact h
  | cons event events ih =>
      have hevent : ∀ key address, event ≠ .call (.insertClient key address) := by
        rintro key address rfl
        exact hevents key address List.mem_cons_self
      refine ih (separate_after h hevent) ?_
      intro key address hmem
      exact hevents key address (List.mem_cons_of_mem _ hmem)

/-- Where there is no file, nobody holds anything. -/
theorem separate_openAt {host : Host} {path : Path} {config : PoolConfig} {w : ω}
    (hpool : Pool.create config.cidr config.gateway = .ok pool)
    (habsent : host.disk.contentsAt? (host.disk.placeOf path) = none)
    (hopen : openAt host path config (({}, w) : EngineTunnel δ × ω) = .ok p) :
    Separate pool p := by
  have hstored : Registry.Stored host.disk path ∅ := Or.inl ⟨habsent, rfl⟩
  have hstored' := Registry.stored_openAt hstored
  obtain ⟨registry, disk, pool', hregistry, hpool', rfl⟩ := openAt_eq_ok hopen
  obtain rfl : pool' = pool := Except.ok.inj (hpool'.symm.trans hpool)
  obtain rfl : registry = ⟨path, ∅⟩ := Registry.openAt_of_stored hstored (by rw [hregistry])
  rw [hregistry] at hstored'
  have hnone : ∀ key entry, ¬Held (⟨({}, w), ⟨path, ∅⟩, .create pool' config.strategy,
      { host with disk }, none⟩ : Plane (EngineTunnel δ × ω)) key entry := by
    rintro key entry (⟨record, hrecord, -⟩ | ⟨peer, hpeer, -⟩)
    · cases hrecord
    · cases hpeer
  refine ⟨Allocator.sound_create (Pool.last_lt_of_create hpool) _, rfl, hstored', ?_, ?_, ?_⟩
  · intro key peer hpeer
    cases hpeer
  · intro key entry hheld
    exact absurd hheld (hnone key entry)
  · intro k₁ k₂ entry hheld
    exact absurd hheld (hnone k₁ entry)

theorem Separate.held_of_holds (h : Separate pool p) {key entry : String}
    (hholds : Holds (EngineTunnel.backend e) p key entry) : Held p key entry := by
  rcases hholds with hrecorded | ⟨peer, hpeer, hkey, hentry⟩
  · exact Or.inl hrecorded
  · obtain ⟨other, hother⟩ := KeyMap.mem_values_iff.mp hpeer
    have hsame : other = key := by rw [← hkey, h.named other peer hother]
    exact Or.inr ⟨peer, by rw [← hsame]; exact hother, hentry⟩

/-- **No two keys ever hold one address**, counting what the registry records and what the backend
allows, and every address that is held may be handed out from the pool. This stands whatever fails
at the engine and at the file, and across new processes, as long as the registry began without a
file and clients are given the addresses that the pool hands out. -/
theorem held_addresses_unique (e : Engine ω δ) {host : Host} {path : Path} {config : PoolConfig}
    {pool : Pool} {w : ω} {p : Plane (EngineTunnel δ × ω)}
    (hpool : Pool.create config.cidr config.gateway = .ok pool)
    (habsent : host.disk.contentsAt? (host.disk.placeOf path) = none)
    (hopen : openAt host path config ({}, w) = .ok p) (events : List (Event ω))
    (hevents : ∀ key address, Event.call (.insertClient key address) ∉ events) :
    let b := EngineTunnel.backend e
    let q := p.afterAll e events
    (∀ key₁ key₂ entry₁ entry₂ address, Holds b q key₁ entry₁ → Holds b q key₂ entry₂ →
      Ipv4.ofEntry? entry₁ = some address → Ipv4.ofEntry? entry₂ = some address → key₁ = key₂) ∧
    ∀ key entry, Holds b q key entry →
      ∃ address, Ipv4.ofEntry? entry = some address ∧ pool.assignable address = true := by
  intro b q
  have hseparate : Separate pool q :=
    separate_afterAll (separate_openAt hpool habsent hopen) hevents
  constructor
  · intro key₁ key₂ entry₁ entry₂ address h₁ h₂ haddress₁ haddress₂
    have hheld₁ := hseparate.held_of_holds h₁
    have hheld₂ := hseparate.held_of_holds h₂
    obtain ⟨a₁, rfl, -, -⟩ := hseparate.covered key₁ entry₁ hheld₁
    obtain ⟨a₂, rfl, -, -⟩ := hseparate.covered key₂ entry₂ hheld₂
    -- entries that name one address are one entry, since both are written by the allocator
    rw [Network.ofEntry?_host] at haddress₁ haddress₂
    obtain rfl : a₁ = a₂ := (Option.some.inj haddress₁).trans (Option.some.inj haddress₂).symm
    exact hseparate.unique key₁ key₂ _ hheld₁ hheld₂
  · intro key entry h
    obtain ⟨a, rfl, hassign, -⟩ := hseparate.covered key entry (hseparate.held_of_holds h)
    refine ⟨a, Network.ofEntry?_host a, ?_⟩
    rw [← hseparate.pool_eq]
    exact hassign

/-- The first of two clients cannot be written down, and its address goes to a third in the next
process; the first then gets another. -/
theorem addresses_unique_after_lost_record :
    let key₁ := "xTIBA5rboUvnH4htodjb6e697QjLERt1NAB4mZqp8Dg="
    let key₂ := "HIgo9xNzJMWLKASShiTqIybxZ0U3wGLiUeJ1PKf8ykw="
    let key₃ := "TrMvSoP4jYQlY6RIzBgbssQqY3vxI2Pi+y71lOWWXX0="
    let first : List (Event Stage) :=
      [.call (.start trialSettings), .call (.register key₁), .call (.register key₂)]
    let events := first ++
      [.restart {}, .call (.start trialSettings), .call (.register key₃), .call (.register key₁)]
    let host := trialHost [none, none, some ⟨.noSpace, 0⟩]
    ∃ p, openAt host trialPath trialPool ({}, {}) = .ok p ∧
      (p.afterAll Stage.engine first).registry.peers.keys = [key₂] ∧
      let q := p.afterAll Stage.engine events
      q.registry.peers.entries.map (fun entry => (entry.1, entry.2.allowedAddress)) =
        [(key₂, "10.0.0.3/32"), (key₃, "10.0.0.2/32"), (key₁, "10.0.0.4/32")] ∧
      ∀ k₁ k₂ entry₁ entry₂ address,
        Holds (EngineTunnel.backend Stage.engine) q k₁ entry₁ →
        Holds (EngineTunnel.backend Stage.engine) q k₂ entry₂ →
        Ipv4.ofEntry? entry₁ = some address → Ipv4.ofEntry? entry₂ = some address → k₁ = k₂ := by
  intro key₁ key₂ key₃ first events host
  let p : Plane (EngineTunnel String × Stage) := trial ({}, {}) [none, some ⟨.noSpace, 0⟩]
  have hopen : openAt host trialPath trialPool ({}, {}) = .ok p :=
    openAt_trial _ [none, some ⟨.noSpace, 0⟩]
  have hlost : (p.afterAll Stage.engine first).registry.peers.keys = [key₂] := by decide +kernel
  have hleft : (p.afterAll Stage.engine events).registry.peers.entries.map
      (fun entry => (entry.1, entry.2.allowedAddress)) =
        [(key₂, "10.0.0.3/32"), (key₃, "10.0.0.2/32"), (key₁, "10.0.0.4/32")] := by
    decide +kernel
  have hevents : ∀ key address, Event.call (.insertClient key address) ∉ events := by
    intro key address
    simp [events, first]
  have hunique := held_addresses_unique Stage.engine create_trialPool rfl hopen events hevents
  exact ⟨p, hopen, hlost, hleft, hunique.1⟩

end Plane

end OverlayVpn
