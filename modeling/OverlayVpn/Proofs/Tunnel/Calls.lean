import Mathlib.Data.List.Induction
import OverlayVpn.Proofs.Tunnel.Alike
import OverlayVpn.Proofs.Tunnel.EngineTunnel

set_option autoImplicit false

/-! # Calls of the engine's backend

A backend answers calls one after another. Whatever the engine does, the backend runs exactly while
it has a device and a configuration, and without a device it knows no peers (`Consistent`); a call
that fails leaves all that it remembers as it was (`tunnel_of_isError`). Alike engines lead to the
same replies (`serve_alike`). -/

namespace OverlayVpn

namespace EngineTunnel

/-! ## Calls and replies -/

/-- A call of the backend. No call has a limit of time. -/
inductive Call where
  | start (config : TunnelSettings)
  | stop
  | abort
  | insertPeer (peer : TunnelPeer)
  | erasePeer (publicKey : String)
  | transferred
  deriving DecidableEq

/-- What a call is answered. -/
inductive Reply where
  | done (result : Except BackendFault Unit)
  /-- Without a result, stopping did not come to its end. -/
  | stopped (result : Option (Except BackendFault Unit))
  /-- Without a result, a sum did not fit and the call broke off. -/
  | transferred (result : Option (Except BackendFault Transfer))
  | aborted
  deriving DecidableEq

/-- Whether the call failed or broke off. -/
def Reply.isError : Reply → Bool
  | .done result => ! result.isOk
  | .stopped result => result.any (! ·.isOk)
  | .transferred result => ! result.any (·.isOk)
  | .aborted => false

variable {ω ω' δ δ' : Type}

/-- Answers one call. -/
def perform (e : Engine ω δ) (s : EngineTunnel δ × ω) : Call → Reply × EngineTunnel δ × ω
  | .start config => (.done (start e config s).1, (start e config s).2)
  | .stop => (.stopped (stop e none s).1, (stop e none s).2)
  | .abort => (.aborted, abort e s)
  | .insertPeer peer => (.done (insertPeer e peer s).1, (insertPeer e peer s).2)
  | .erasePeer key => (.done (erasePeer e key s).1, (erasePeer e key s).2)
  | .transferred => (.transferred (transferred e s).1, (transferred e s).2)

/-- Answers calls one after another. -/
def serve (e : Engine ω δ) (s : EngineTunnel δ × ω) : List Call → List Reply × EngineTunnel δ × ω
  | [] => ([], s)
  | call :: calls =>
    let (reply, s) := perform e s call
    let (replies, s) := serve e s calls
    (reply :: replies, s)

theorem serve_concat (e : Engine ω δ) (s : EngineTunnel δ × ω) (calls : List Call) (call : Call) :
    serve e s (calls ++ [call]) =
      ((serve e s calls).1 ++ [(perform e (serve e s calls).2 call).1],
        (perform e (serve e s calls).2 call).2) := by
  induction calls generalizing s with
  | nil => simp only [List.nil_append, serve]
  | cons first calls ih => simp only [List.cons_append, serve, ih]

/-! ## What the backend remembers -/

/-- What a backend remembers at any time. -/
structure Consistent (b : EngineTunnel δ) : Prop where
  running_eq : b.running = b.device.isSome
  config_eq : b.config.isSome = b.device.isSome
  peers_eq : b.device = none → b.peers = ∅

theorem consistent_empty : Consistent ({} : EngineTunnel δ) := ⟨rfl, rfl, fun _ => rfl⟩

/-- Asking for what passed through leaves alone what the backend remembers. -/
theorem tunnel_transferred (e : Engine ω δ) (s : EngineTunnel δ × ω) :
    (transferred e s).2.1 = s.1 := by
  unfold transferred
  dsimp only
  split
  · split
    · rfl
    · split
      · rfl
      · split <;> rfl
  · rfl

/-- **A peer is accepted only while there is a device.** -/
theorem insertPeer_device {e : Engine ω δ} {peer : TunnelPeer} {s : EngineTunnel δ × ω}
    (h : (insertPeer e peer s).1 = .ok ()) : s.1.device ≠ none := by
  intro hdevice
  have hfails : ∀ body, (send e body s).1.isOk = false := by
    intro body
    simp only [send, hdevice]
    split <;> rfl
  unfold insertPeer at h
  split at h
  · cases h
  · next key _ =>
      have hfailed := hfails (Engine.body (peerSettings key peer))
      split at h
      · next hsend => rw [hsend] at hfailed; cases hfailed
      · rw [h] at hfailed; cases hfailed

/-- **Every call leaves a consistent backend consistent.** -/
theorem consistent_perform (e : Engine ω δ) {s : EngineTunnel δ × ω} (h : Consistent s.1)
    (call : Call) : Consistent (perform e s call).2.1 := by
  cases call with
  | start config =>
      rcases start_cases e config s with ⟨-, device, w, heq⟩ | ⟨fault, w, heq⟩
      · rw [perform, heq]
        exact ⟨rfl, rfl, fun hnone => by cases hnone⟩
      · rw [perform, heq]
        exact h
  | stop =>
      rcases stop_cases e none s with ⟨-, heq⟩ | ⟨-, ended, w, heq⟩
      · rw [perform, heq]
        exact h
      · rw [perform, heq]
        exact consistent_empty
  | abort =>
      obtain ⟨w, heq⟩ := abort_eq e s
      rw [perform, heq]
      exact consistent_empty
  | insertPeer peer =>
      rcases insertPeer_cases e peer s with ⟨w, heq⟩ | ⟨fault, w, heq⟩
      · have hdevice : s.1.device ≠ none := insertPeer_device (by rw [heq])
        rw [perform, heq]
        exact ⟨h.running_eq, h.config_eq, fun hnone => absurd hnone hdevice⟩
      · rw [perform, heq]
        exact h
  | erasePeer key =>
      rcases erasePeer_cases e key s with ⟨w, heq⟩ | ⟨fault, w, heq⟩
      · rw [perform, heq]
        refine ⟨h.running_eq, h.config_eq, fun hnone => ?_⟩
        show s.1.peers.erase key = ∅
        rw [h.peers_eq hnone]
        rfl
      · rw [perform, heq]
        exact h
  | transferred =>
      show Consistent (transferred e s).2.1
      rw [tunnel_transferred]
      exact h

theorem consistent_serve (e : Engine ω δ) (w : ω) (calls : List Call) :
    Consistent (serve e ({}, w) calls).2.1 := by
  induction calls using List.reverseRecOn with
  | nil => exact consistent_empty
  | append_singleton calls call ih =>
      rw [serve_concat]
      exact consistent_perform e ih call

/-- Stopping never fails. -/
theorem stop_not_error (e : Engine ω δ) (s : EngineTunnel δ × ω) (limit : Option Nat)
    (fault : BackendFault) : (stop e limit s).1 ≠ some (.error fault) := by
  unfold stop
  dsimp only
  split
  · simp
  · simp

/-- Stopping comes to its end, if closing does. -/
theorem stop_of_closes {e : Engine ω δ} (hclose : ∀ device w, (e.close device none w).1 ≠ .cutOff)
    (s : EngineTunnel δ × ω) : (stop e none s).1 = some (.ok ()) := by
  unfold stop
  dsimp only
  split
  · rfl
  · next device _ =>
      have hnot := hclose device s.2
      unfold dismantle
      split
      · next hclosed => rw [hclosed] at hnot; exact absurd rfl hnot
      · rfl

/-- **A call that fails leaves all that the backend remembers as it was.** -/
theorem tunnel_of_isError (e : Engine ω δ) (s : EngineTunnel δ × ω) {call : Call}
    (h : (perform e s call).1.isError = true) : (perform e s call).2.1 = s.1 := by
  cases call with
  | start config =>
      rcases start_cases e config s with ⟨-, device, w, heq⟩ | ⟨fault, w, heq⟩
      · rw [perform, heq] at h
        cases h
      · rw [perform, heq]
  | stop =>
      rcases stop_cases e none s with ⟨-, heq⟩ | ⟨hdevice, ended, w, heq⟩
      · rw [perform, heq]
      · have hfine := stop_not_error e s none
        cases hresult : (stop e none s).1 with
        | none =>
            rw [perform, hresult] at h
            cases h
        | some result =>
            cases result with
            | ok done =>
                rw [perform, hresult] at h
                cases h
            | error fault => exact absurd hresult (hfine fault)
  | abort => cases h
  | insertPeer peer =>
      rcases insertPeer_cases e peer s with ⟨w, heq⟩ | ⟨fault, w, heq⟩
      · rw [perform, heq] at h
        cases h
      · rw [perform, heq]
  | erasePeer key =>
      rcases erasePeer_cases e key s with ⟨w, heq⟩ | ⟨fault, w, heq⟩
      · rw [perform, heq] at h
        cases h
      · rw [perform, heq]
  | transferred => exact tunnel_transferred e s

/-! ## Alike engines -/

variable {e : Engine ω δ} {e' : Engine ω' δ'} {W : ω → ω' → Prop} {D : δ → δ' → Prop}
  {s : EngineTunnel δ × ω} {s' : EngineTunnel δ' × ω'}

theorem perform_alike (he : e.Alike e' W D) (h : Related W D s s') (call : Call) :
    (perform e s call).1 = (perform e' s' call).1 ∧
      Related W D (perform e s call).2 (perform e' s' call).2 := by
  cases call with
  | start config =>
      obtain ⟨hresult, hrelated⟩ := start_alike he config h
      simp only [perform, hresult]
      exact ⟨trivial, hrelated⟩
  | stop =>
      obtain ⟨hresult, hrelated⟩ := stop_alike he none h
      simp only [perform, hresult]
      exact ⟨trivial, hrelated⟩
  | abort => exact ⟨rfl, abort_alike he h⟩
  | insertPeer peer =>
      obtain ⟨hresult, hrelated⟩ := insertPeer_alike he peer h
      simp only [perform, hresult]
      exact ⟨trivial, hrelated⟩
  | erasePeer key =>
      obtain ⟨hresult, hrelated⟩ := erasePeer_alike he key h
      simp only [perform, hresult]
      exact ⟨trivial, hrelated⟩
  | transferred =>
      obtain ⟨hresult, hrelated⟩ := transferred_alike he h
      simp only [perform, hresult]
      exact ⟨trivial, hrelated⟩

end EngineTunnel

end OverlayVpn
