import OverlayVpn.Proofs.Control.Synchrony
import OverlayVpn.Proofs.Pool.Allocator

set_option autoImplicit false

/-! # Runs of a control plane

In a run, calls are answered one after another, and new processes take the place of old ones.
Whatever fails on the way, a control plane that runs is in working order (`operating_afterAll`):
its backend has a device that is up, and its allocator has reserved nothing that it may not hand
out. -/

namespace OverlayVpn

namespace Plane

variable {ω δ : Type}

/-! ## Events -/

/-- What happens to a control plane: a call is answered, or a new process takes its place, in a
world of which nothing is known. -/
inductive Event (ω : Type) where
  | call (c : Call)
  | restart (world : ω)

/-- The control plane after an event. -/
def after (e : Engine ω δ) (p : Plane (EngineTunnel δ × ω)) : Event ω → Plane (EngineTunnel δ × ω)
  | .call c => (p.perform (EngineTunnel.backend e) c).2
  | .restart world => (p.restart fun _ => ({}, world)).2

/-- The control plane after events. -/
def afterAll (e : Engine ω δ) (p : Plane (EngineTunnel δ × ω)) (events : List (Event ω)) :
    Plane (EngineTunnel δ × ω) :=
  events.foldl (after e) p

/-! ## Working order -/

/-- A control plane that runs, with a backend whose device is up. -/
structure Operating (device : δ) (p : Plane (EngineTunnel δ × ω)) : Prop where
  running : p.running.isSome = true
  up : p.backend.1.running = true
  device_eq : p.backend.1.device = some device
  sound : p.allocator.Sound

/-- A control plane that is in working order if it runs. -/
structure Orderly (p : Plane (EngineTunnel δ × ω)) : Prop where
  sound : p.allocator.Sound
  up : p.running.isSome = true → p.backend.1.running = true ∧ p.backend.1.device.isSome = true

variable {e : Engine ω δ} {p q : Plane (EngineTunnel δ × ω)} {call : Call} {reply : Reply}

theorem sound_lease (h : p.allocator.Sound) : p.lease.2.allocator.Sound :=
  Allocator.sound_allocate h p.registry.addresses p.host.clock.read.1

theorem sound_released (h : p.allocator.Sound) (address : Option Ipv4) :
    (p.released address).allocator.Sound := by
  cases address with
  | none => exact h
  | some address => exact Allocator.sound_release h address

theorem sound_outcome {b : Backend (EngineTunnel δ × ω)} (h : p.allocator.Sound)
    (houtcome : Outcome b p call reply q) : q.allocator.Sound := by
  cases houtcome with
  | refused | startFailed | started | idle | stopped | aborted | knownFailed | known | insertFailed
  | inserted | eraseFailed | clients => exact h
  | exhausted hrunning hrecord hlease => exact sound_lease h
  | @registerFailed key address fault backend hrunning hrecord hlease htold =>
      have hlease : { p.lease.2 with backend }.allocator.Sound := sound_lease h
      exact sound_released hlease _
  | @registered key running address backend q hrunning hrecord hlease htold hq =>
      -- neither the record nor the moment that is told touches the allocator
      rw [allocator_registeredAt, hq]
      exact sound_lease h
  | @erased key backend hrunning hdropped =>
      have hstruck : ({ p with backend }.struck key).allocator.Sound := h
      exact sound_released hstruck _

/-- **What a call does to the tunnel**: a start takes up a device, a stop gives it up, and all other
calls change nothing but peers. -/
theorem tunnel_outcome (houtcome : Outcome (EngineTunnel.backend e) p call reply q) :
    (q.running = p.running ∧ ∃ peers, q.backend.1 = { p.backend.1 with peers }) ∨
    (q.backend.1.running = true ∧ q.backend.1.device.isSome = true ∧
      ∃ run, q.running = some run ∧ validate run.config = .ok run.publicKey) ∨
    (q.running = none ∧ q.backend.1.device = none) := by
  cases houtcome with
  | refused | idle | exhausted | clients => exact Or.inl ⟨rfl, _, rfl⟩
  | startFailed hstopped hstart =>
      exact Or.inl ⟨rfl, _, EngineTunnel.tunnel_of_startFailed hstart⟩
  | @started config publicKey backend hstopped hvalid hstart =>
      obtain ⟨device, htunnel⟩ := EngineTunnel.tunnel_of_started hstart
      obtain ⟨peers, heq, -⟩ := restore_cases e p.registry.peers.entries backend
      rw [htunnel] at heq
      refine Or.inr (Or.inl ?_)
      simp only [launched, heq]
      exact ⟨trivial, rfl, _, rfl, hvalid⟩
  | stopped hrunning hstop =>
      refine Or.inr (Or.inr ⟨rfl, ?_⟩)
      rcases EngineTunnel.tunnel_of_stop hstop with htunnel | ⟨hdevice, htunnel⟩
      · rw [htunnel]
      · rw [htunnel, hdevice]
  | aborted hrunning hstop =>
      refine Or.inr (Or.inr ⟨rfl, ?_⟩)
      simp only [EngineTunnel.tunnel_abort]
  | knownFailed hrunning hrecord htold =>
      exact Or.inl ⟨rfl, _, EngineTunnel.tunnel_of_notTold htold⟩
  | known hrunning hrecord htold => exact Or.inl ⟨rfl, _, EngineTunnel.tunnel_of_told htold⟩
  | registerFailed hrunning hrecord hlease htold =>
      exact Or.inl ⟨rfl, _, EngineTunnel.tunnel_of_notTold htold⟩
  | @registered key running address backend q hrunning hrecord hlease htold hq =>
      refine Or.inl ⟨?_, ?_⟩
      · rw [running_registeredAt, hq]
        rfl
      · rw [backend_registeredAt, hq]
        exact ⟨_, EngineTunnel.tunnel_of_told htold⟩
  | insertFailed hrunning hhost hrecord htold =>
      exact Or.inl ⟨rfl, _, EngineTunnel.tunnel_of_notTold htold⟩
  | inserted hrunning hhost hrecord htold =>
      exact Or.inl ⟨rfl, _, EngineTunnel.tunnel_of_told htold⟩
  | eraseFailed hrunning hdropped =>
      exact Or.inl ⟨rfl, _, EngineTunnel.tunnel_of_notDropped hdropped⟩
  | erased hrunning hdropped =>
      refine Or.inl ⟨?_, ?_⟩
      · rw [running_released]
        rfl
      · rw [backend_released, backend_struck]
        exact ⟨_, EngineTunnel.tunnel_of_dropped hdropped⟩

theorem orderly_outcome (h : Orderly p) (houtcome : Outcome (EngineTunnel.backend e) p call reply q) :
    Orderly q := by
  refine ⟨sound_outcome h.sound houtcome, fun hq => ?_⟩
  rcases tunnel_outcome houtcome with ⟨hsame, peers, htunnel⟩ | ⟨hup, hdevice, -⟩ | ⟨hstopped, -⟩
  · rw [hsame] at hq
    rw [htunnel]
    exact h.up hq
  · exact ⟨hup, hdevice⟩
  · rw [hstopped] at hq
    cases hq

theorem Orderly.of_stopped (hsound : q.allocator.Sound) (hstopped : q.running = none) :
    Orderly q := by
  refine ⟨hsound, fun hq => ?_⟩
  rw [hstopped] at hq
  cases hq

theorem orderly_after (h : Orderly p) (event : Event ω) : Orderly (p.after e event) := by
  cases event with
  | call c => exact orderly_outcome h (outcome_perform (EngineTunnel.backend e) p c)
  | restart world =>
      show Orderly (p.restart fun _ => ({}, world)).2
      unfold restart
      split
      · exact ⟨h.sound, h.up⟩
      · exact .of_stopped (Allocator.sound_create h.sound.last_lt _) rfl

theorem orderly_openAt {host : Host} {path : Path} {config : PoolConfig} {w : ω}
    (hopen : openAt host path config (({}, w) : EngineTunnel δ × ω) = .ok p) : Orderly p := by
  obtain ⟨registry, disk, pool, -, hpool, rfl⟩ := openAt_eq_ok hopen
  exact .of_stopped (Allocator.sound_create (Pool.last_lt_of_create hpool) _) rfl

/-- **A control plane that runs is in working order**, whatever has happened before. -/
theorem operating_afterAll {host : Host} {path : Path} {config : PoolConfig} {w : ω}
    (hopen : openAt host path config (({}, w) : EngineTunnel δ × ω) = .ok p)
    (events : List (Event ω)) (hrunning : (p.afterAll e events).running.isSome = true) :
    ∃ device, Operating device (p.afterAll e events) := by
  have horderly : Orderly (p.afterAll e events) := by
    have hstart := orderly_openAt hopen
    clear hopen hrunning
    induction events generalizing p with
    | nil => exact hstart
    | cons event events ih => exact ih (orderly_after hstart event)
  obtain ⟨hup, hdevice⟩ := horderly.up hrunning
  obtain ⟨device, heq⟩ := Option.isSome_iff_exists.mp hdevice
  exact ⟨device, hrunning, hup, heq, horderly.sound⟩

end Plane

end OverlayVpn
