import OverlayVpn.Proofs.Disk.Shape
import OverlayVpn.Proofs.Registry

set_option autoImplicit false

/-! # Registries that differ in dates

Two registries are alike when they hold the same peers but for dates, which are related by some `T`:
what was read from one clock in the one was read from another clock in the other. Dates decide
nothing, and neither does what the files hold, so that changes come out alike on hosts that differ
in nothing else (`add_alike`, `remove_alike`). -/

namespace OverlayVpn

/-- The readings to come of two clocks are related one by one. -/
def Clock.Alike (T : Timestamp → Timestamp → Prop) (c c' : Clock) : Prop :=
  ∀ k, T (c.reading (c.ticks + k)) (c'.reading (c'.ticks + k))

/-- Two moments are one, or were read from two clocks in step: each after the same number of other
readings. -/
def Clock.InStep (c c' : Clock) (t t' : Timestamp) : Prop :=
  t = t' ∨ ∃ k, t = c.reading (c.ticks + k) ∧ t' = c'.reading (c'.ticks + k)

/-- Two records say the same but for their dates, which are related. -/
structure RegisteredPeer.Alike (T : Timestamp → Timestamp → Prop) (r r' : RegisteredPeer) :
    Prop where
  publicKey : r.publicKey = r'.publicKey
  allowedAddress : r.allowedAddress = r'.allowedAddress
  registeredAt : T r.registeredAt r'.registeredAt

/-- Two registries of one path hold the same but for dates. -/
structure Registry.Alike (T : Timestamp → Timestamp → Prop) (r r' : Registry) : Prop where
  path : r.path = r'.path
  peers : r.peers.Alike (RegisteredPeer.Alike T) r'.peers

/-- Two hosts differ in what files hold and in what their clocks show. -/
structure Host.Alike (T : Timestamp → Timestamp → Prop) (h h' : Host) : Prop where
  disk : h.disk.shape = h'.disk.shape
  clock : h.clock.Alike T h'.clock

variable {T : Timestamp → Timestamp → Prop}

/-! ## Hosts -/

theorem Clock.read_alike {c c' : Clock} (h : c.Alike T c') :
    T c.read.1 c'.read.1 ∧ c.read.2.Alike T c'.read.2 := by
  refine ⟨h 0, fun k => ?_⟩
  have hnext := h (1 + k)
  rw [← Nat.add_assoc, ← Nat.add_assoc] at hnext
  exact hnext

theorem Clock.alike_inStep (c c' : Clock) : c.Alike (c.InStep c') c' :=
  fun k => Or.inr ⟨k, rfl, rfl⟩

theorem Clock.InStep.eq {c : Clock} (t t' : Timestamp) (h : c.InStep c t t') : t = t' := by
  rcases h with h | ⟨k, rfl, rfl⟩
  · exact h
  · rfl

/-! ## Registries -/

theorem RegisteredPeer.alike_refl (hT : ∀ t, T t t) (r : RegisteredPeer) :
    RegisteredPeer.Alike T r r :=
  ⟨rfl, rfl, hT _⟩

theorem RegisteredPeer.Alike.eq (hT : ∀ t t', T t t' → t = t') (r r' : RegisteredPeer)
    (h : r.Alike T r') : r = r' := by
  cases r
  cases r'
  rw [RegisteredPeer.mk.injEq]
  exact ⟨h.publicKey, h.allowedAddress, hT _ _ h.registeredAt⟩

namespace Registry

variable {r r' : Registry} {host host' : Host}

theorem addresses_alike (h : r.Alike T r') : r.addresses = r'.addresses := by
  have hmap : r.peers.map (·.allowedAddress) = r'.peers.map (·.allowedAddress) :=
    h.peers.map_eq fun _ _ hrecord => hrecord.allowedAddress
  rw [addresses, addresses, ← KeyMap.values_map, ← KeyMap.values_map, hmap]

/-- **Commits succeed together or fail together**, whatever peers they write. -/
theorem commit_alike (h : r.Alike T r') {disk disk' : Disk} (hdisk : disk.shape = disk'.shape)
    (peers peers' : KeyMap RegisteredPeer) :
    ∃ d d' : Disk, d.shape = d'.shape ∧
      ((r.commit disk peers = (.ok { r with peers }, d) ∧
          r'.commit disk' peers' = (.ok { r' with peers := peers' }, d')) ∨
        ∃ error, r.commit disk peers = (.error (.io r.path error), d) ∧
          r'.commit disk' peers' = (.error (.io r'.path error), d')) := by
  obtain ⟨hresult, hshape⟩ := Disk.replace_alike hdisk r.path (contents peers) (contents peers')
  rw [h.path] at hresult hshape
  unfold commit
  rw [h.path]
  cases hreplace : disk.replace r'.path (contents peers) with
  | mk result d =>
      cases hreplace' : disk'.replace r'.path (contents peers') with
      | mk result' d' =>
          rw [hreplace, hreplace'] at hresult hshape
          obtain rfl : result = result' := hresult
          refine ⟨d, d', hshape, ?_⟩
          cases result with
          | ok u => exact Or.inl ⟨rfl, rfl⟩
          | error error => exact Or.inr ⟨error, rfl, rfl⟩

/-- **Additions come out alike**, with the present moments of the two hosts. -/
theorem add_alike (h : r.Alike T r') (hhost : host.Alike T host') (key address : String) :
    (r.add host key address).1.map (fun _ => ()) = (r'.add host' key address).1.map (fun _ => ()) ∧
      (r.add host key address).2.1.Alike T (r'.add host' key address).2.1 ∧
      (r.add host key address).2.2.Alike T (r'.add host' key address).2.2 := by
  unfold add
  rcases rel_cases (h.peers key) with ⟨hnone, hnone'⟩ | ⟨record, record', hrecord, hsome, hsome'⟩
  · simp only [hnone, hnone']
    obtain ⟨hnow, hclock⟩ := Clock.read_alike hhost.clock
    have hnew : RegisteredPeer.Alike T ⟨key, address, host.clock.read.1⟩
        ⟨key, address, host'.clock.read.1⟩ := ⟨rfl, rfl, hnow⟩
    obtain ⟨d, d', hshape, ⟨hdone, hdone'⟩ | ⟨error, hfailed, hfailed'⟩⟩ :=
      commit_alike h hhost.disk (r.peers.insert key ⟨key, address, host.clock.read.1⟩)
        (r'.peers.insert key ⟨key, address, host'.clock.read.1⟩)
    · rw [hdone, hdone']
      exact ⟨rfl, ⟨h.path, h.peers.insert hnew key⟩, hshape, hclock⟩
    · rw [hfailed, hfailed', h.path]
      exact ⟨rfl, h, hshape, hclock⟩
  · simp only [hsome, hsome', hrecord.allowedAddress]
    split
    · exact ⟨rfl, h, hhost⟩
    · exact ⟨rfl, h, hhost⟩

/-- **Removals come out alike.** -/
theorem remove_alike (h : r.Alike T r') (hhost : host.Alike T host') (key : String) :
    (r.remove host key).2.1.Alike T (r'.remove host' key).2.1 ∧
      (r.remove host key).2.2.Alike T (r'.remove host' key).2.2 := by
  unfold remove
  rcases rel_cases (h.peers key) with ⟨hnone, hnone'⟩ | ⟨record, record', hrecord, hsome, hsome'⟩
  · simp only [hnone, hnone']
    exact ⟨h, hhost⟩
  · simp only [hsome, hsome']
    obtain ⟨d, d', hshape, ⟨hdone, hdone'⟩ | ⟨error, hfailed, hfailed'⟩⟩ :=
      commit_alike h hhost.disk (r.peers.erase key) (r'.peers.erase key)
    · rw [hdone, hdone']
      exact ⟨⟨h.path, h.peers.erase key⟩, hshape, hhost.clock⟩
    · rw [hfailed, hfailed']
      exact ⟨h, hshape, hhost.clock⟩

end Registry

end OverlayVpn
