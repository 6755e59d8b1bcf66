import OverlayVpn.Proofs.Control.Alike
import OverlayVpn.Proofs.Control.Runs
import OverlayVpn.Rehearsal.Stage

set_option autoImplicit false

/-! # Calls that fail

A control plane may have come to its state in any way (`Reachable`): calls were made at once and
their steps interleaved, some were given up half-way, writes and the engine failed, processes came
and went. What carries through all of this is that the allocator is sound, since every single step
of every call keeps it so (`keepsSound_call`).

A call that fails then has no effect. It may have moved the allocator's floor, counted a failure,
read the clock, and made and closed a device, so that the control plane is not the same; but it is
one that answers alike (`failed_call_has_no_effect`). -/

namespace OverlayVpn

namespace Plane

/-! ## Every step keeps the allocator sound -/

section

variable {β : Type} (b : Backend β)

/-- Every step of a task keeps a sound allocator sound. -/
abbrev KeepsSound {α : Type} (t : Task (Plane β) α) : Prop :=
  Task.Keeps (fun p => p.allocator.Sound) t

theorem keepsSound_onBackend {α : Type} (f : β → α × β) : KeepsSound (onBackend f) :=
  Task.keeps_atomic fun _ h => h

theorem keepsSound_record (key address : String) : KeepsSound (record (β := β) key address) :=
  Task.keeps_atomic fun _ h => h

theorem keepsSound_strike (key : String) : KeepsSound (strike (β := β) key) :=
  Task.keeps_atomic fun _ h => h

theorem keepsSound_allocate (known : List String) : KeepsSound (allocate (β := β) known) :=
  Task.keeps_atomic fun p h => Allocator.sound_allocate h known p.host.clock.read.1

theorem keepsSound_release (address : Ipv4) : KeepsSound (release (β := β) address) :=
  Task.keeps_atomic fun _ h => Allocator.sound_release h address

theorem keepsSound_readClock : KeepsSound (readClock (β := β)) :=
  Task.keeps_atomic fun _ h => h

theorem keepsSound_replay (entries : List (String × RegisteredPeer)) :
    KeepsSound (replay b entries) := by
  induction entries with
  | nil => exact .done _
  | cons entry entries ih =>
      exact (keepsSound_onBackend _).bind fun _ => ih.bind fun _ => .done _

theorem keepsSound_start (config : TunnelSettings) : KeepsSound (start b config) := by
  refine (Task.keeps_look _).bind fun running => ?_
  split
  · exact .done _
  · cases validate config with
    | error reason => exact .done _
    | ok publicKey =>
        refine (keepsSound_onBackend _).bind fun result => ?_
        cases result with
        | error fault => exact .done _
        | ok u =>
            refine (Task.keeps_look _).bind fun peers => ?_
            refine (keepsSound_replay b peers).bind fun _ => ?_
            refine keepsSound_readClock.bind fun now => ?_
            exact (Task.keeps_atomic fun _ h => h).bind fun _ => .done _

theorem keepsSound_stop (deadline : Nat) : KeepsSound (stop b deadline) := by
  refine Task.keeps_atomic fun p h => ?_
  dsimp only
  split
  · exact h
  · split <;> exact h

theorem keepsSound_addRunning (key address : String) : KeepsSound (addRunning b key address) := by
  unfold addRunning
  cases Key.check key with
  | error fault => exact .done _
  | ok u =>
      cases Ipv4.ofEntry? address with
      | none => exact .done _
      | some host =>
          refine (Task.keeps_look _).bind fun existing => ?_
          split
          · exact .done _
          · refine (keepsSound_onBackend _).bind fun told => ?_
            cases told with
            | error fault => exact .done _
            | ok u =>
                refine (keepsSound_record key _).bind fun written => ?_
                split
                · refine Task.Keeps.bind ?_ fun _ => .done _
                  refine (keepsSound_onBackend _).bind fun _ => ?_
                  exact (keepsSound_onBackend _).bind fun _ => .done _
                · exact .done _

theorem keepsSound_insertClient (key address : String) : KeepsSound (insertClient b key address) := by
  refine (Task.keeps_look _).bind fun running => ?_
  split
  · exact .done _
  · exact keepsSound_addRunning b key address

theorem keepsSound_eraseClient (key : String) : KeepsSound (eraseClient b key) := by
  refine (Task.keeps_look _).bind fun running => ?_
  split
  · exact .done _
  · refine (keepsSound_onBackend _).bind fun dropped => ?_
    cases dropped with
    | error fault => exact .done _
    | ok u =>
        refine (Task.keeps_look _).bind fun record => ?_
        refine (keepsSound_strike key).bind fun _ => ?_
        split
        · exact (keepsSound_release _).bind fun _ => .done _
        · exact .done _

theorem keepsSound_register (key : String) : KeepsSound (register b key) := by
  refine (Task.keeps_look _).bind fun running => ?_
  cases running with
  | none => exact .done _
  | some running =>
      simp only
      cases Key.check key with
      | error fault => exact .done _
      | ok u =>
          refine (Task.keeps_look _).bind fun existing => ?_
          cases existing with
          | some record =>
              refine (keepsSound_onBackend _).bind fun told => ?_
              cases told <;> exact .done _
          | none =>
              refine (Task.keeps_look _).bind fun known => ?_
              refine (keepsSound_allocate known).bind fun leased => ?_
              cases leased with
              | error fault => exact .done _
              | ok assigned =>
                  refine (keepsSound_addRunning b key _).bind fun added => ?_
                  cases added with
                  | error fault => exact (keepsSound_release _).bind fun _ => .done _
                  | ok allowed =>
                      refine (Task.keeps_look _).bind fun record => ?_
                      cases record with
                      | some record => exact .done _
                      | none => exact keepsSound_readClock.bind fun _ => .done _

/-- **Every step of every call keeps the allocator sound.** -/
theorem keepsSound_call (call : Call) : KeepsSound (call.task b) := by
  cases call with
  | start config => exact (keepsSound_start b config).bind fun _ => .done _
  | stop deadline => exact (keepsSound_stop b deadline).bind fun _ => .done _
  | register key => exact (keepsSound_register b key).bind fun _ => .done _
  | insertClient key address => exact (keepsSound_insertClient b key address).bind fun _ => .done _
  | eraseClient key => exact (keepsSound_eraseClient b key).bind fun _ => .done _
  | clients => exact Task.keeps_look _

end

/-! ## The states of a control plane -/

variable {ω δ : Type}

/-- The control plane in another world, with another clock and other failures of its file system in
store. -/
def amidst (p : Plane (EngineTunnel δ × ω)) (world : ω) (clock : Clock)
    (failures : List (Option DiskFailure)) : Plane (EngineTunnel δ × ω) :=
  { p with
    backend := (p.backend.1, world)
    host := { disk := { p.host.disk with failures }, clock } }

/-- The states that a control plane can get into. -/
inductive Reachable (e : Engine ω δ) : Plane (EngineTunnel δ × ω) → Prop where
  | opened {host : Host} {path : Path} {config : PoolConfig} {w : ω}
      {p : Plane (EngineTunnel δ × ω)} (hopen : openAt host path config ({}, w) = .ok p) :
      Reachable e p
  /-- Any number of callers have taken steps; not all calls need have come to their end. -/
  | called {p : Plane (EngineTunnel δ × ω)} {n : Nat} (h : Reachable e p) (calls : Fin n → Call)
      (schedule : List (Fin n)) :
      Reachable e
        (Task.interleave schedule (fun i => (calls i).task (EngineTunnel.backend e)) p).2
  /-- A new process has taken the place of the old one. -/
  | restarted {p : Plane (EngineTunnel δ × ω)} (h : Reachable e p) (world : ω) :
      Reachable e (p.restart fun _ => ({}, world)).2
  /-- Nobody has called for a while, and all around is different. -/
  | elapsed {p : Plane (EngineTunnel δ × ω)} (h : Reachable e p) (world : ω) (clock : Clock)
      (failures : List (Option DiskFailure)) : Reachable e (p.amidst world clock failures)

variable {e : Engine ω δ} {p q : Plane (EngineTunnel δ × ω)}

theorem Reachable.sound (h : Reachable e p) : p.allocator.Sound := by
  induction h with
  | opened hopen => exact (orderly_openAt hopen).sound
  | called _ calls schedule ih =>
      exact Task.keeps_interleave schedule (fun i => keepsSound_call _ (calls i)) ih
  | restarted _ world ih =>
      unfold restart
      split
      · exact ih
      · exact Allocator.sound_create ih.last_lt _
  | elapsed _ world clock failures ih => exact ih

/-- What calls lead to when they are made one after another can be reached. -/
theorem Reachable.serve (h : Reachable e p) (calls : List Call) :
    Reachable e (p.serve (EngineTunnel.backend e) calls).2 := by
  induction calls generalizing p with
  | nil => exact h
  | cons call calls ih =>
      obtain ⟨schedule, hschedule⟩ :=
        Task.exists_interleave_eq_run (call.task (EngineTunnel.backend e)) p
      have hcalled := h.called (fun _ => call) schedule
      rw [hschedule, run_call] at hcalled
      exact ih hcalled

/-! ## What a call that fails leaves -/

/-- A control plane remembers what another does, and its allocator answers alike. -/
structure Remembers (p q : Plane (EngineTunnel δ × ω)) : Prop where
  registry : q.registry = p.registry
  disk : q.host.disk = p.host.disk
  running : q.running = p.running
  tunnel : q.backend.1 = p.backend.1
  allocator : q.allocator.Alike p.allocator

/-- **A call that fails leaves what was remembered.** An address that was handed out on the way is
taken back, and nothing is written down. -/
theorem remembers_of_failed (hsound : p.allocator.Sound) {call : Call} {fault : ControlFault}
    (houtcome : Outcome (EngineTunnel.backend e) p call (.failed fault) q) : Remembers p q := by
  have hsame := Allocator.alike_refl hsound
  cases houtcome with
  | refused hrefusal => exact ⟨rfl, rfl, rfl, rfl, hsame⟩
  | startFailed hstopped hstart hvalid =>
      exact ⟨rfl, rfl, rfl, EngineTunnel.tunnel_of_startFailed hstart, hsame⟩
  | knownFailed hrunning hrecord htold hkey =>
      exact ⟨rfl, rfl, rfl, EngineTunnel.tunnel_of_notTold htold, hsame⟩
  | exhausted hrunning hrecord hlease hkey =>
      exact ⟨rfl, rfl, rfl, rfl, Allocator.alike_refused hsound hlease⟩
  | registerFailed hrunning hrecord hlease htold hkey =>
      exact ⟨rfl, rfl, rfl, EngineTunnel.tunnel_of_notTold htold,
        Allocator.alike_taken_back hsound hlease⟩
  | insertFailed hrunning hhost hrecord htold hkey =>
      exact ⟨rfl, rfl, rfl, EngineTunnel.tunnel_of_notTold htold, hsame⟩
  | eraseFailed hrunning hdropped =>
      exact ⟨rfl, rfl, rfl, EngineTunnel.tunnel_of_notDropped hdropped, hsame⟩

/-! ## What follows -/

/-- What remembers the same answers alike in related worlds, whatever its clock shows. -/
theorem Remembers.alike_amidst (h : Remembers p q) {W : ω → ω → Prop} {D : δ → δ → Prop}
    {world world' : ω} (hworld : W world world')
    (hdevice : ∀ device, p.backend.1.device = some device → D device device)
    (clock clock' : Clock) (failures : List (Option DiskFailure)) :
    (q.amidst world clock failures).Alike (EngineTunnel.Related W D) (clock.InStep clock')
      (p.amidst world' clock' failures) := by
  have hmoment : ∀ t, clock.InStep clock' t t := fun t => Or.inl rfl
  refine ⟨⟨?_, ?_, ?_, ?_, hworld⟩, ⟨?_, ?_⟩, h.allocator, ⟨?_, Clock.alike_inStep clock clock'⟩, ?_⟩
  · show Option.Rel D q.backend.1.device p.backend.1.device
    rw [h.tunnel]
    cases hup : p.backend.1.device with
    | none => exact .none
    | some device => exact .some (hdevice device hup)
  · exact congrArg EngineTunnel.config h.tunnel
  · exact congrArg EngineTunnel.peers h.tunnel
  · exact congrArg EngineTunnel.running h.tunnel
  · exact congrArg Registry.path h.registry
  · show q.registry.peers.Alike (RegisteredPeer.Alike (clock.InStep clock')) p.registry.peers
    rw [h.registry]
    exact KeyMap.alike_refl (RegisteredPeer.alike_refl hmoment) _
  · show ({ q.host.disk with failures } : Disk).shape = ({ p.host.disk with failures } : Disk).shape
    rw [h.disk]
  · show Option.Rel (ServerRun.Alike (clock.InStep clock')) q.running p.running
    rw [h.running]
    cases p.running with
    | none => exact .none
    | some run => exact .some ⟨rfl, rfl, hmoment _⟩

/-- **A call that fails has no effect.** Whatever has happened to a control plane before, a call that
is answered with a failure leaves the registry and its file, the settings with which the control
plane runs and all that the backend remembers as they were. Calls that follow are answered as if the
failed one had not been made: in worlds in which the engine answers alike, and with the same failures
of the file system in store, the replies are the same but for moments that were read from the clocks
in the meantime, and with the same clock they are the same altogether. -/
theorem failed_call_has_no_effect (e : Engine ω δ) {p : Plane (EngineTunnel δ × ω)}
    (hp : Reachable e p) (call : Call) {fault : ControlFault}
    (hfailed : (p.perform (EngineTunnel.backend e) call).1 = .failed fault) :
    let b := EngineTunnel.backend e
    let q := (p.perform b call).2
    (q.registry = p.registry ∧ q.host.disk = p.host.disk ∧ q.running = p.running ∧
      q.backend.1 = p.backend.1 ∧ b.knownPeers q.backend = b.knownPeers p.backend) ∧
    ∀ (W : ω → ω → Prop) (D : δ → δ → Prop) (world world' : ω) (clock clock' : Clock)
      (failures : List (Option DiskFailure)) (calls : List Call),
      e.Alike e W D → W world world' →
      (∀ device, p.backend.1.device = some device → D device device) →
      let told := ((q.amidst world clock failures).serve b calls).1
      let told' := ((p.amidst world' clock' failures).serve b calls).1
      List.Forall₂ (Reply.Alike (clock.InStep clock')) told told' ∧
        (clock = clock' → told = told') := by
  intro b q
  have houtcome := outcome_perform b p call
  rw [hfailed] at houtcome
  have hsame : Remembers p q := remembers_of_failed hp.sound houtcome
  refine ⟨⟨hsame.registry, hsame.disk, hsame.running, hsame.tunnel, ?_⟩, ?_⟩
  · exact congrArg (fun tunnel => tunnel.peers.values) hsame.tunnel
  · intro W D world world' clock clock' failures calls he hworld hdevice told told'
    have halike := (serve_alike (EngineTunnel.backend_alike he)
      (hsame.alike_amidst hworld hdevice clock clock' failures) calls).1
    refine ⟨halike, ?_⟩
    rintro rfl
    have heq : List.Forall₂ Eq told told' := halike.imp fun _ _ h => h.eq Clock.InStep.eq
    rwa [List.forall₂_eq_eq_eq] at heq

/-- An engine rejects the first client that registers. The allocator is not what it was, since its
floor has moved; but when the engine rejects nobody any more, the calls that follow are answered as
if nobody had registered. -/
theorem rejected_registration_has_no_effect :
    let key₁ := "xTIBA5rboUvnH4htodjb6e697QjLERt1NAB4mZqp8Dg="
    let key₂ := "HIgo9xNzJMWLKASShiTqIybxZ0U3wGLiUeJ1PKf8ykw="
    let clock := (trialHost []).clock
    let calls : List Call :=
      [.register key₂, .clients, .eraseClient key₂, .register key₁, .stop 1000]
    ∃ p q : Plane (EngineTunnel String × Stage), Reachable Stage.engine p ∧
      (p.perform (EngineTunnel.backend Stage.engine) (.register key₁)).1 =
        .failed (.backend (.engine (.reply (.errno (-22))))) ∧
      (p.perform (EngineTunnel.backend Stage.engine) (.register key₁)).2 = q ∧
      q.allocator ≠ p.allocator ∧ q.registry = p.registry ∧
      ((q.amidst {} clock []).serve (EngineTunnel.backend Stage.engine) calls).1 =
        ((p.amidst {} clock []).serve (EngineTunnel.backend Stage.engine) calls).1 := by
  intro key₁ key₂ clock calls
  let stage : Stage := { script := { rejectSet := [("allowed_ip", -22)] } }
  let p : Plane (EngineTunnel String × Stage) :=
    ((trial ({}, stage) []).serve (EngineTunnel.backend Stage.engine) [.start trialSettings]).2
  have hp : Reachable Stage.engine p := (Reachable.opened (openAt_trial _ [])).serve _
  obtain ⟨hfailed, hmoved⟩ :
      (p.perform (EngineTunnel.backend Stage.engine) (.register key₁)).1 =
          .failed (.backend (.engine (.reply (.errno (-22))))) ∧
        (p.perform (EngineTunnel.backend Stage.engine) (.register key₁)).2.allocator ≠
          p.allocator := by
    decide +kernel
  clear_value p clock calls
  obtain ⟨⟨hregistry, -⟩, hlater⟩ := failed_call_has_no_effect Stage.engine hp _ hfailed
  exact ⟨p, _, hp, hfailed, rfl, hmoved, hregistry,
    (hlater Eq Eq {} {} clock clock [] calls (Engine.alike_refl _) rfl fun _ _ => rfl).2 rfl⟩

end Plane

end OverlayVpn
