import OverlayVpn.Proofs.Engine.Alike
import OverlayVpn.Proofs.Store.KeyMap
import OverlayVpn.Tunnel.EngineTunnel

set_option autoImplicit false

/-! # Backends that answer alike

Two backends are alike, as far as `S` relates their states, when every operation on related states
has one reply for both and leaves related states. The backends of alike engines are alike
(`EngineTunnel.backend_alike`): the states are related when they remember the same and their devices
and worlds are related. -/

namespace OverlayVpn

/-- Two backends answer alike. -/
structure Backend.Alike {β β' : Type} (b : Backend β) (b' : Backend β') (S : β → β' → Prop) :
    Prop where
  start : ∀ config s s', S s s' →
    (b.start config s).1 = (b'.start config s').1 ∧ S (b.start config s).2 (b'.start config s').2
  stop : ∀ limit s s', S s s' →
    (b.stop limit s).1 = (b'.stop limit s').1 ∧ S (b.stop limit s).2 (b'.stop limit s').2
  insertPeer : ∀ peer s s', S s s' →
    (b.insertPeer peer s).1 = (b'.insertPeer peer s').1 ∧
      S (b.insertPeer peer s).2 (b'.insertPeer peer s').2
  erasePeer : ∀ key s s', S s s' →
    (b.erasePeer key s).1 = (b'.erasePeer key s').1 ∧
      S (b.erasePeer key s).2 (b'.erasePeer key s').2
  knownPeers : ∀ s s', S s s' → b.knownPeers s = b'.knownPeers s'
  isRunning : ∀ s s', S s s' → b.isRunning s = b'.isRunning s'
  transferred : ∀ s s', S s s' →
    (b.transferred s).1 = (b'.transferred s').1 ∧ S (b.transferred s).2 (b'.transferred s').2
  abort : ∀ s s', S s s' → S (b.abort s) (b'.abort s')

namespace EngineTunnel

variable {ω ω' δ δ' : Type} {e : Engine ω δ} {e' : Engine ω' δ'} {W : ω → ω' → Prop}
  {D : δ → δ' → Prop} {s : EngineTunnel δ × ω} {s' : EngineTunnel δ' × ω'}

/-- Two backends' states are the same but for their devices and worlds, which are related. -/
structure Related (W : ω → ω' → Prop) (D : δ → δ' → Prop) (s : EngineTunnel δ × ω)
    (s' : EngineTunnel δ' × ω') : Prop where
  device : Option.Rel D s.1.device s'.1.device
  config : s.1.config = s'.1.config
  peers : s.1.peers = s'.1.peers
  running : s.1.running = s'.1.running
  world : W s.2 s'.2

theorem related_empty {w : ω} {w' : ω'} (h : W w w') : Related W D ({}, w) ({}, w') :=
  ⟨.none, rfl, rfl, rfl, h⟩

theorem Related.withWorld (h : Related W D s s') {w : ω} {w' : ω'} (hw : W w w') :
    Related W D (s.1, w) (s'.1, w') :=
  ⟨h.device, h.config, h.peers, h.running, hw⟩

/-- Related states both have a device, or neither has. -/
theorem Related.device_cases (h : Related W D s s') :
    (s.1.device = none ∧ s'.1.device = none) ∨
      ∃ device device', D device device' ∧ s.1.device = some device ∧
        s'.1.device = some device' :=
  rel_cases h.device

variable {device : δ} {device' : δ'} {w : ω} {w' : ω'}

theorem dismantle_alike (he : e.Alike e' W D) (hdevice : D device device') (limit : Option Nat)
    (hw : W w w') :
    (dismantle e device limit w).1 = (dismantle e' device' limit w').1 ∧
      W (dismantle e device limit w).2 (dismantle e' device' limit w').2 := by
  obtain ⟨hclosing, hclosed⟩ := he.close device device' limit w w' hdevice hw
  have hcut := he.discard device device' _ _ hdevice hclosed
  have hdiscarded := he.discard device device' _ _ hdevice
    (he.deleteLink device device' _ _ hdevice hclosed)
  unfold dismantle
  cases hclose : e.close device limit w with
  | mk closing v =>
      cases hclose' : e'.close device' limit w' with
      | mk closing' v' =>
          rw [hclose, hclose'] at hclosing hcut hdiscarded
          obtain rfl : closing = closing' := hclosing
          cases closing with
          | cutOff => exact ⟨rfl, hcut⟩
          | closed => exact ⟨rfl, hdiscarded⟩
          | failed fault => exact ⟨rfl, hdiscarded⟩
          | brokeDown => exact ⟨rfl, hdiscarded⟩

theorem configure_alike (he : e.Alike e' W D) (hdevice : D device device') (key : Key)
    (config : TunnelSettings) (hw : W w w') :
    (configure e device key config w).1 = (configure e' device' key config w').1 ∧
      W (configure e device key config w).2 (configure e' device' key config w').2 := by
  have hset := he.set device device' (Engine.body [.privateKey key, .listenPort config.listenPort])
    w w' hdevice hw
  unfold configure
  cases hsent : e.set device (Engine.body [.privateKey key, .listenPort config.listenPort]) w with
  | mk result v =>
      cases hsent' : e'.set device'
          (Engine.body [.privateKey key, .listenPort config.listenPort]) w' with
      | mk result' v' =>
          rw [hsent, hsent'] at hset
          obtain ⟨rfl : result = result', hv⟩ := hset
          cases result with
          | ok u => exact he.activate device device' config.serverCidr v v' hdevice hv
          | error fault => exact ⟨rfl, hv⟩

theorem start_alike (he : e.Alike e' W D) (config : TunnelSettings) (h : Related W D s s') :
    (start e config s).1 = (start e' config s').1 ∧
      Related W D (start e config s).2 (start e' config s').2 := by
  obtain ⟨b, w⟩ := s
  obtain ⟨b', w'⟩ := s'
  have hisSome : b.device.isSome = b'.device.isSome := by
    rcases h.device_cases with ⟨hd, hd'⟩ | ⟨device, device', -, hd, hd'⟩ <;>
      simp only at hd hd' <;> rw [hd, hd'] <;> rfl
  simp only [start, ← hisSome]
  split
  · exact ⟨rfl, h⟩
  · cases Key.read config.privateKey with
    | error fault => exact ⟨rfl, h⟩
    | ok key =>
        obtain ⟨v, v', hv, ⟨device, device', hdevice, hmade, hmade'⟩ | ⟨fault, hmade, hmade'⟩⟩ :=
          he.create config.interfaceName w w' h.world
        · have hconfigured := configure_alike he hdevice key config hv
          simp only [hmade, hmade']
          cases hresult : configure e device key config v with
          | mk result u =>
              cases hresult' : configure e' device' key config v' with
              | mk result' u' =>
                  rw [hresult, hresult'] at hconfigured
                  obtain ⟨rfl : result = result', hu⟩ := hconfigured
                  cases result with
                  | ok done => exact ⟨rfl, .some hdevice, rfl, rfl, rfl, hu⟩
                  | error fault =>
                      exact ⟨rfl, h.withWorld (dismantle_alike he hdevice none hu).2⟩
        · simp only [hmade, hmade']
          exact ⟨trivial, h.withWorld hv⟩

theorem stop_alike (he : e.Alike e' W D) (limit : Option Nat) (h : Related W D s s') :
    (stop e limit s).1 = (stop e' limit s').1 ∧
      Related W D (stop e limit s).2 (stop e' limit s').2 := by
  unfold stop
  rcases h.device_cases with ⟨hd, hd'⟩ | ⟨device, device', hdevice, hd, hd'⟩
  · simp only [hd, hd']
    exact ⟨trivial, h⟩
  · obtain ⟨hended, hw⟩ := dismantle_alike he hdevice limit h.world
    simp only [hd, hd']
    exact ⟨congrArg _ hended, related_empty hw⟩

theorem abort_alike (he : e.Alike e' W D) (h : Related W D s s') :
    Related W D (abort e s) (abort e' s') := by
  unfold abort
  rcases h.device_cases with ⟨hd, hd'⟩ | ⟨device, device', hdevice, hd, hd'⟩
  · simp only [hd, hd']
    exact related_empty h.world
  · simp only [hd, hd']
    exact related_empty (he.discard device device' s.2 s'.2 hdevice h.world)

theorem send_alike (he : e.Alike e' W D) (body : String) (h : Related W D s s') :
    (send e body s).1 = (send e' body s').1 ∧
      Related W D (send e body s).2 (send e' body s').2 := by
  simp only [send, ← h.running]
  split
  · rcases h.device_cases with ⟨hd, hd'⟩ | ⟨device, device', hdevice, hd, hd'⟩
    · simp only [hd, hd']
      exact ⟨trivial, h⟩
    · obtain ⟨hresult, hw⟩ := he.set device device' body s.2 s'.2 hdevice h.world
      simp only [hd, hd']
      exact ⟨congrArg _ hresult, h.withWorld hw⟩
  · exact ⟨rfl, h⟩

theorem insertPeer_alike (he : e.Alike e' W D) (peer : TunnelPeer) (h : Related W D s s') :
    (insertPeer e peer s).1 = (insertPeer e' peer s').1 ∧
      Related W D (insertPeer e peer s).2 (insertPeer e' peer s').2 := by
  unfold insertPeer
  cases Key.read peer.publicKey with
  | error fault => exact ⟨rfl, h⟩
  | ok key =>
      have hsend := send_alike he (Engine.body (peerSettings key peer)) h
      cases hsent : send e (Engine.body (peerSettings key peer)) s with
      | mk result t =>
          cases hsent' : send e' (Engine.body (peerSettings key peer)) s' with
          | mk result' t' =>
              rw [hsent, hsent'] at hsend
              obtain ⟨rfl : result = result', ht⟩ := hsend
              simp only [hsent, hsent']
              cases result with
              | ok done =>
                  exact ⟨rfl, ht.device, ht.config, congrArg (·.insert peer.publicKey peer) ht.peers,
                    ht.running, ht.world⟩
              | error fault => exact ⟨rfl, ht⟩

theorem erasePeer_alike (he : e.Alike e' W D) (publicKey : String) (h : Related W D s s') :
    (erasePeer e publicKey s).1 = (erasePeer e' publicKey s').1 ∧
      Related W D (erasePeer e publicKey s).2 (erasePeer e' publicKey s').2 := by
  unfold erasePeer
  cases Key.read publicKey with
  | error fault => exact ⟨rfl, h⟩
  | ok key =>
      have hsend := send_alike he (Engine.body [.publicKey key, .remove]) h
      cases hsent : send e (Engine.body [.publicKey key, .remove]) s with
      | mk result t =>
          cases hsent' : send e' (Engine.body [.publicKey key, .remove]) s' with
          | mk result' t' =>
              rw [hsent, hsent'] at hsend
              obtain ⟨rfl : result = result', ht⟩ := hsend
              simp only [hsent, hsent']
              cases result with
              | ok done =>
                  exact ⟨rfl, ht.device, ht.config, congrArg (·.erase publicKey) ht.peers,
                    ht.running, ht.world⟩
              | error fault => exact ⟨rfl, ht⟩

theorem transferred_alike (he : e.Alike e' W D) (h : Related W D s s') :
    (transferred e s).1 = (transferred e' s').1 ∧
      Related W D (transferred e s).2 (transferred e' s').2 := by
  simp only [transferred, ← h.running]
  split
  · rcases h.device_cases with ⟨hd, hd'⟩ | ⟨device, device', hdevice, hd, hd'⟩
    · simp only [hd, hd']
      exact ⟨trivial, h⟩
    · have hget := he.get device device' s.2 s'.2 hdevice h.world
      simp only [hd, hd']
      cases hasked : e.get device s.2 with
      | mk result v =>
          cases hasked' : e'.get device' s'.2 with
          | mk result' v' =>
              rw [hasked, hasked'] at hget
              obtain ⟨rfl : result = result', hv⟩ := hget
              cases result with
              | error fault => exact ⟨rfl, h.withWorld hv⟩
              | ok lines =>
                  simp only
                  cases Engine.DeviceState.ofLines lines with
                  | error fault => exact ⟨rfl, h.withWorld hv⟩
                  | ok state => exact ⟨rfl, h.withWorld hv⟩
  · exact ⟨rfl, h⟩

/-- **The backends of alike engines are alike.** -/
theorem backend_alike (he : e.Alike e' W D) : (backend e).Alike (backend e') (Related W D) where
  start config _ _ := start_alike he config
  stop limit _ _ := stop_alike he limit
  insertPeer peer _ _ := insertPeer_alike he peer
  erasePeer key _ _ := erasePeer_alike he key
  knownPeers _ _ h := congrArg KeyMap.values h.peers
  isRunning _ _ h := h.running
  transferred _ _ := transferred_alike he
  abort _ _ := abort_alike he

end EngineTunnel

end OverlayVpn
