import OverlayVpn.Proofs.Engine.Protocol
import OverlayVpn.Tunnel.EngineTunnel

set_option autoImplicit false

/-! # What the engine's backend remembers

Whatever the engine does, a call that fails leaves what the backend remembers as it was, and a
call that is done changes it in one way: it adds or forgets a peer, takes up a device without
peers, or forgets everything. -/

namespace OverlayVpn

namespace EngineTunnel

variable {ω δ : Type}

/-- A request leaves alone what the backend remembers. -/
theorem tunnel_send (e : Engine ω δ) (body : String) (s : EngineTunnel δ × ω) :
    (send e body s).2.1 = s.1 := by
  unfold send
  dsimp only
  split
  · split <;> rfl
  · rfl

/-- **A peer is remembered exactly when the device accepts it.** -/
theorem insertPeer_cases (e : Engine ω δ) (peer : TunnelPeer) (s : EngineTunnel δ × ω) :
    (∃ w, insertPeer e peer s =
      (.ok (), { s.1 with peers := s.1.peers.insert peer.publicKey peer }, w)) ∨
    ∃ fault w, insertPeer e peer s = (.error fault, s.1, w) := by
  obtain ⟨b, w⟩ := s
  unfold insertPeer
  split
  · exact Or.inr ⟨_, w, rfl⟩
  · next key _ =>
      have htunnel := tunnel_send e (Engine.body (peerSettings key peer)) (b, w)
      cases hsend : send e (Engine.body (peerSettings key peer)) (b, w) with
      | mk result s' =>
          obtain ⟨b', w'⟩ := s'
          rw [hsend] at htunnel
          obtain rfl : b' = b := htunnel
          cases result with
          | ok u => exact Or.inl ⟨w', rfl⟩
          | error fault => exact Or.inr ⟨fault, w', rfl⟩

/-- **A peer is forgotten exactly when the device gives it up.** -/
theorem erasePeer_cases (e : Engine ω δ) (publicKey : String) (s : EngineTunnel δ × ω) :
    (∃ w, erasePeer e publicKey s = (.ok (), { s.1 with peers := s.1.peers.erase publicKey }, w)) ∨
    ∃ fault w, erasePeer e publicKey s = (.error fault, s.1, w) := by
  obtain ⟨b, w⟩ := s
  unfold erasePeer
  split
  · exact Or.inr ⟨_, w, rfl⟩
  · next key _ =>
      have htunnel := tunnel_send e (Engine.body [.publicKey key, .remove]) (b, w)
      cases hsend : send e (Engine.body [.publicKey key, .remove]) (b, w) with
      | mk result s' =>
          obtain ⟨b', w'⟩ := s'
          rw [hsend] at htunnel
          obtain rfl : b' = b := htunnel
          cases result with
          | ok u => exact Or.inl ⟨w', rfl⟩
          | error fault => exact Or.inr ⟨fault, w', rfl⟩

/-- **A start that succeeds takes up a device without peers**; another leaves all as it was. -/
theorem start_cases (e : Engine ω δ) (config : TunnelSettings) (s : EngineTunnel δ × ω) :
    (s.1.device = none ∧ ∃ device w, start e config s =
      (.ok (), { device := some device, config := some config, running := true }, w)) ∨
    ∃ fault w, start e config s = (.error fault, s.1, w) := by
  unfold start
  dsimp only
  split
  · exact Or.inr ⟨_, s.2, rfl⟩
  · next hdevice =>
      split
      · exact Or.inr ⟨_, s.2, rfl⟩
      · split
        · exact Or.inr ⟨_, _, rfl⟩
        · split
          · exact Or.inr ⟨_, _, rfl⟩
          · exact Or.inl ⟨by simpa using hdevice, _, _, rfl⟩

/-- **A tunnel with a device forgets everything when it is stopped.** -/
theorem stop_cases (e : Engine ω δ) (limit : Option Nat) (s : EngineTunnel δ × ω) :
    (s.1.device = none ∧ stop e limit s = (some (.ok ()), s)) ∨
    (s.1.device.isSome = true ∧ ∃ ended w, stop e limit s = (ended, {}, w)) := by
  unfold stop
  dsimp only
  split
  · next hdevice => exact Or.inl ⟨hdevice, rfl⟩
  · next device hdevice => exact Or.inr ⟨by rw [hdevice]; rfl, _, _, rfl⟩

theorem abort_eq (e : Engine ω δ) (s : EngineTunnel δ × ω) : ∃ w, abort e s = ({}, w) := by
  unfold abort
  split
  · exact ⟨_, rfl⟩
  · exact ⟨_, rfl⟩

/-! ## The operations of the backend -/

section

variable {e : Engine ω δ} {s s' : EngineTunnel δ × ω} {fault : BackendFault}

theorem tunnel_of_startFailed {config : TunnelSettings}
    (h : (backend e).start config s = (.error fault, s')) : s'.1 = s.1 := by
  simp only [backend] at h
  rcases start_cases e config s with ⟨-, device, w, heq⟩ | ⟨fault', w, heq⟩
  · rw [heq] at h
    cases h
  · rw [heq] at h
    obtain rfl := (Prod.mk.inj h).2
    rfl

theorem tunnel_of_started {config : TunnelSettings}
    (h : (backend e).start config s = (.ok (), s')) :
    ∃ device, s'.1 = { device := some device, config := some config, running := true } := by
  simp only [backend] at h
  rcases start_cases e config s with ⟨-, device, w, heq⟩ | ⟨fault', w, heq⟩
  · rw [heq] at h
    obtain rfl := (Prod.mk.inj h).2
    exact ⟨device, rfl⟩
  · rw [heq] at h
    cases h

/-- A stopped tunnel has forgotten everything, unless there was nothing to stop. -/
theorem tunnel_of_stop {limit : Option Nat} {ended : Option (Except BackendFault Unit)}
    (h : (backend e).stop limit s = (ended, s')) :
    s'.1 = {} ∨ s.1.device = none ∧ s'.1 = s.1 := by
  simp only [backend] at h
  rcases stop_cases e limit s with ⟨hdevice, heq⟩ | ⟨-, ended', w, heq⟩
  · rw [heq] at h
    obtain rfl := (Prod.mk.inj h).2
    exact Or.inr ⟨hdevice, rfl⟩
  · rw [heq] at h
    obtain rfl := (Prod.mk.inj h).2
    exact Or.inl rfl

theorem tunnel_abort (e : Engine ω δ) (s : EngineTunnel δ × ω) :
    ((backend e).abort s).1 = {} := by
  obtain ⟨w, heq⟩ := abort_eq e s
  simp only [backend, heq]

theorem tunnel_of_told {key : String} {allowed : List String}
    (h : (backend e).allowPeer key allowed s = (.ok (), s')) :
    s'.1 = { s.1 with peers := s.1.peers.insert key ⟨key, allowed, none, none⟩ } := by
  simp only [Backend.allowPeer, backend] at h
  rcases insertPeer_cases e ⟨key, allowed, none, none⟩ s with ⟨w, heq⟩ | ⟨fault', w, heq⟩
  · rw [heq] at h
    obtain rfl := (Prod.mk.inj h).2
    rfl
  · rw [heq] at h
    cases h

theorem tunnel_of_notTold {key : String} {allowed : List String}
    (h : (backend e).allowPeer key allowed s = (.error fault, s')) : s'.1 = s.1 := by
  simp only [Backend.allowPeer, backend] at h
  rcases insertPeer_cases e ⟨key, allowed, none, none⟩ s with ⟨w, heq⟩ | ⟨fault', w, heq⟩
  · rw [heq] at h
    cases h
  · rw [heq] at h
    obtain rfl := (Prod.mk.inj h).2
    rfl

theorem tunnel_of_dropped {key : String} (h : (backend e).erasePeer key s = (.ok (), s')) :
    s'.1 = { s.1 with peers := s.1.peers.erase key } := by
  simp only [backend] at h
  rcases erasePeer_cases e key s with ⟨w, heq⟩ | ⟨fault', w, heq⟩
  · rw [heq] at h
    obtain rfl := (Prod.mk.inj h).2
    rfl
  · rw [heq] at h
    cases h

theorem tunnel_of_notDropped {key : String}
    (h : (backend e).erasePeer key s = (.error fault, s')) : s'.1 = s.1 := by
  simp only [backend] at h
  rcases erasePeer_cases e key s with ⟨w, heq⟩ | ⟨fault', w, heq⟩
  · rw [heq] at h
    cases h
  · rw [heq] at h
    obtain rfl := (Prod.mk.inj h).2
    rfl

end

/-! ## With an engine that accepts every request -/

section

variable {e : Engine ω δ} {s : EngineTunnel δ × ω} {device : δ}

theorem send_of_accepts (h : e.Accepts) (hup : s.1.running = true) (hdevice : s.1.device = some device)
    (body : String) : (send e body s).1 = .ok () := by
  obtain ⟨b, w⟩ := s
  simp only at hup hdevice
  simp only [send, hup, hdevice, if_true, h.set]
  rfl

/-- A device is configured and set up. -/
theorem configure_of_accepts (h : e.Accepts) (device : δ) (key : Key) (config : TunnelSettings)
    (w : ω) : (configure e device key config w).1 = .ok () := by
  have hset := h.set device (Engine.body [.privateKey key, .listenPort config.listenPort]) w
  unfold configure
  split
  · exact h.activate device config.serverCidr _
  · exact hset

/-- A tunnel without a device starts, if its private key is one. -/
theorem start_of_accepts (h : e.Accepts) {config : TunnelSettings} {key : Key}
    (hdevice : s.1.device = none) (hkey : Key.read config.privateKey = .ok key) :
    ((backend e).start config s).1 = .ok () := by
  obtain ⟨b, w⟩ := s
  simp only at hdevice
  simp only [backend, start, hdevice, hkey, Option.isSome_none, Bool.false_eq_true, if_false]
  have hcreate := h.create config.interfaceName w
  cases hmade : e.create config.interfaceName w with
  | mk result w₁ =>
      rw [hmade] at hcreate
      cases result with
      | error fault => cases hcreate
      | ok device =>
          have hconfigure := configure_of_accepts h device key config w₁
          cases hdone : configure e device key config w₁ with
          | mk result w₂ =>
              rw [hdone] at hconfigure
              obtain rfl : result = .ok () := hconfigure
              simp only [hdone]

/-- A peer is refused for its key alone. -/
theorem allowPeer_of_accepts (h : e.Accepts) (hup : s.1.running = true)
    (hdevice : s.1.device = some device) {text : String} (hkey : Key.check text = .ok ())
    (allowed : List String) : ((backend e).allowPeer text allowed s).1 = .ok () := by
  unfold Key.check at hkey
  cases hread : Key.read text with
  | error fault =>
      rw [hread] at hkey
      cases hkey
  | ok key =>
      have hsend := send_of_accepts h hup hdevice
        (Engine.body (peerSettings key ⟨text, allowed, none, none⟩))
      simp only [Backend.allowPeer, backend, insertPeer, hread]
      split
      · rfl
      · exact hsend

/-- A peer is given up, if its key is one. -/
theorem erasePeer_of_accepts (h : e.Accepts) (hup : s.1.running = true)
    (hdevice : s.1.device = some device) (text : String) :
    ((backend e).erasePeer text s).1 = (Key.check text).mapError (.invalidKey .peerPublicKey) := by
  simp only [backend, erasePeer, Key.check]
  cases hread : Key.read text with
  | error fault => rfl
  | ok key =>
      have hsend := send_of_accepts h hup hdevice (Engine.body [.publicKey key, .remove])
      simp only
      split
      · rfl
      · exact hsend

end

/-! ## With an engine that keeps to the protocol -/

section

variable {e : Engine ω δ} {peersOf : δ → ω → KeyMap Engine.PeerEntry} {s : EngineTunnel δ × ω}
  {device : δ} {text : String} {key : Key}

theorem send_of_obeys (h : Engine.Obeys e peersOf) (hup : s.1.running = true)
    (hdevice : s.1.device = some device) {settings : List Engine.Setting}
    (hlines : ∀ setting ∈ settings, setting.OnLine) :
    ∃ w, send e (Engine.body settings) s = (.ok (), s.1, w) ∧
      peersOf device w = Engine.PeerTable.apply (peersOf device s.2) (Engine.body settings) := by
  obtain ⟨b, w⟩ := s
  have haccepts := h.accepts device settings w hlines
  have happlies := h.applies device settings w hlines
  cases hset : e.set device (Engine.body settings) w with
  | mk result w' =>
      rw [hset] at haccepts happlies
      obtain rfl : result = .ok () := haccepts
      refine ⟨w', ?_, happlies⟩
      simp only at hup hdevice
      simp only [send, hup, hdevice, hset, if_true]
      rfl

/-- **A peer that is allowed an address** keeps those that it was allowed before. -/
theorem allowPeer_of_obeys (h : Engine.Obeys e peersOf) (hup : s.1.running = true)
    (hdevice : s.1.device = some device) (hkey : Key.read text = .ok key) {cidr : String}
    (hline : (Engine.Setting.allowedIp cidr).OnLine) :
    ∃ w, (backend e).allowPeer text [cidr] s =
        (.ok (), { s.1 with peers := s.1.peers.insert text ⟨text, [cidr], none, none⟩ }, w) ∧
      peersOf device w = Engine.PeerTable.apply (peersOf device s.2) (Engine.allowBody key cidr) := by
  obtain ⟨w, hsend, happlies⟩ := send_of_obeys h hup hdevice (Engine.onLine_allow key hline)
  refine ⟨w, ?_, happlies⟩
  have hsettings : peerSettings key ⟨text, [cidr], none, none⟩ =
      [.publicKey key, .allowedIp cidr] := rfl
  simp only [Backend.allowPeer, backend, insertPeer, hkey, hsettings, hsend]

theorem erasePeer_of_obeys (h : Engine.Obeys e peersOf) (hup : s.1.running = true)
    (hdevice : s.1.device = some device) (hkey : Key.read text = .ok key) :
    ∃ w, (backend e).erasePeer text s =
        (.ok (), { s.1 with peers := s.1.peers.erase text }, w) ∧
      peersOf device w = Engine.PeerTable.apply (peersOf device s.2) (Engine.dropBody key) := by
  obtain ⟨w, hsend, happlies⟩ := send_of_obeys h hup hdevice (Engine.onLine_drop key)
  refine ⟨w, ?_, happlies⟩
  simp only [backend, erasePeer, hkey, hsend]

end

end EngineTunnel

end OverlayVpn
