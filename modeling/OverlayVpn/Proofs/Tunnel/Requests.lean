import OverlayVpn.Proofs.Engine.Journal
import OverlayVpn.Proofs.Engine.Protocol
import OverlayVpn.Tunnel.EngineTunnel

set_option autoImplicit false

/-! # The bodies that a tunnel's backend sends

Whatever the backend is asked to do, it sends at most one body: the settings of the device when it
starts, the settings of a peer when it adds one, and the removal of a peer. So the bodies in the
journal of its engine are all of a kind as long as these are (`Sends`). -/

namespace OverlayVpn

namespace Engine

variable {ω δ α : Type}

/-- All bodies in a journal are of a kind. -/
def Sends (P : String → Prop) (acts : List Act) : Prop :=
  ∀ n body done, Act.set n body done ∈ acts → P body

section

variable {P : String → Prop}

theorem sends_nil : Sends P [] := fun _ _ _ h => nomatch h

theorem sends_concat {acts : List Act} {act : Act} (h : Sends P acts)
    (hact : ∀ n body done, act = .set n body done → P body) : Sends P (acts ++ [act]) := by
  intro n body done hmem
  rcases List.mem_append.mp hmem with hmem | hmem
  · exact h n body done hmem
  · exact hact n body done (List.mem_singleton.mp hmem).symm

variable {e : Engine ω δ} (device : Nat × δ) {x : Diary ω} (h : Sends P x.acts)
include h

theorem sends_create (interface : String) :
    Sends P (e.journaled.create interface x).2.acts := by
  unfold journaled
  dsimp only
  split
  · exact sends_concat h nofun
  · exact sends_concat h nofun

theorem sends_set {body : String} (hbody : P body) :
    Sends P (e.journaled.set device body x).2.acts := by
  refine sends_concat h fun n body' done heq => ?_
  obtain ⟨-, rfl, -⟩ := Act.set.inj heq
  exact hbody

theorem sends_activate (address : String) :
    Sends P (e.journaled.activate device address x).2.acts :=
  sends_concat h nofun

theorem sends_close (limit : Option Nat) : Sends P (e.journaled.close device limit x).2.acts :=
  sends_concat h nofun

theorem sends_deleteLink : Sends P (e.journaled.deleteLink device x).2.acts :=
  sends_concat h nofun

theorem sends_discard : Sends P (e.journaled.discard device x).acts := sends_concat h nofun

end

end Engine

namespace EngineTunnel

open Engine

variable {ω δ : Type} {e : Engine ω δ} {P : String → Prop}

section

variable {s : EngineTunnel (Nat × δ) × Diary ω} (h : Sends P s.2.acts)
include h

theorem sends_dismantle (device : Nat × δ) (limit : Option Nat) :
    Sends P (dismantle e.journaled device limit s.2).2.acts := by
  have hclose := sends_close (e := e) device h limit
  unfold dismantle
  split
  · next hcut =>
      rw [hcut] at hclose
      exact sends_discard device hclose
  · next hclosed =>
      rw [hclosed] at hclose
      exact sends_discard device (sends_deleteLink device hclose)

/-- A start sends the settings of the device, if anything. -/
theorem sends_start {config : TunnelSettings}
    (hbody : ∀ key, Key.read config.privateKey = .ok key →
      P (body [.privateKey key, .listenPort config.listenPort])) :
    Sends P (start e.journaled config s).2.2.acts := by
  have hcreate := sends_create (e := e) h config.interfaceName
  unfold start
  dsimp only
  split
  · exact h
  · cases hkey : Key.read config.privateKey with
    | error fault => exact h
    | ok key =>
        simp only
        split
        · next hfailed =>
            rw [hfailed] at hcreate
            exact hcreate
        · next device x hmade =>
            rw [hmade] at hcreate
            have hset := sends_set (e := e) device hcreate (hbody key hkey)
            have hconfigure : Sends P (configure e.journaled device key config x).2.acts := by
              unfold configure
              split
              · next hdone =>
                  rw [hdone] at hset
                  exact sends_activate device hset _
              · exact hset
            split
            · next hfault =>
                rw [hfault] at hconfigure
                exact sends_dismantle (s := (s.1, _)) hconfigure device none
            · next hdone =>
                rw [hdone] at hconfigure
                exact hconfigure

theorem sends_stop (limit : Option Nat) : Sends P (stop e.journaled limit s).2.2.acts := by
  unfold stop
  dsimp only
  split
  · exact h
  · next device _ => exact sends_dismantle h device limit

theorem sends_abort : Sends P (abort e.journaled s).2.acts := by
  unfold abort
  split
  · exact sends_discard _ h
  · exact h

theorem sends_send {body : String} (hbody : P body) :
    Sends P (send e.journaled body s).2.2.acts := by
  unfold send
  dsimp only
  split
  · split
    · exact h
    · exact sends_set _ h hbody
  · exact h

/-- To add a peer its settings are sent, if anything. -/
theorem sends_insertPeer {peer : TunnelPeer}
    (hbody : ∀ key, Key.read peer.publicKey = .ok key → P (body (peerSettings key peer))) :
    Sends P (insertPeer e.journaled peer s).2.2.acts := by
  unfold insertPeer
  cases hkey : Key.read peer.publicKey with
  | error fault => exact h
  | ok key =>
      have hsend := sends_send (e := e) h (hbody key hkey)
      simp only
      split
      · next hdone =>
          rw [hdone] at hsend
          exact hsend
      · exact hsend

/-- To remove a peer its removal is sent, if anything. -/
theorem sends_erasePeer (hbody : ∀ key, P (dropBody key)) (publicKey : String) :
    Sends P (erasePeer e.journaled publicKey s).2.2.acts := by
  unfold erasePeer
  cases hkey : Key.read publicKey with
  | error fault => exact h
  | ok key =>
      have hsend := sends_send (e := e) h (hbody key)
      simp only
      split
      · next hdone =>
          rw [dropBody, hdone] at hsend
          exact hsend
      · exact hsend

/-- To allow a peer an address a request for that is sent, if anything. -/
theorem sends_allowPeer {address : String} (hbody : ∀ key, P (allowBody key address))
    (publicKey : String) :
    Sends P ((backend e.journaled).allowPeer publicKey [address] s).2.2.acts := by
  simp only [Backend.allowPeer, backend]
  refine sends_insertPeer h fun key _ => ?_
  have hsettings : peerSettings key { publicKey, allowedAddresses := [address] } =
      [.publicKey key, .allowedIp address] := rfl
  rw [hsettings, ← allowBody]
  exact hbody key

end

end EngineTunnel

end OverlayVpn
