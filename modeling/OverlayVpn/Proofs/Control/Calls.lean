import OverlayVpn.Control.Plane
import OverlayVpn.Proofs.Net.Ipv4
import OverlayVpn.Proofs.Registry
import OverlayVpn.Proofs.Task

set_option autoImplicit false

/-! # Calls of a control plane, one after another

When no other caller is about, a call runs from its first step to its last. `Outcome` says what
it can then come to: it is refused before anything is touched, it fails because the backend or
the pool does, or it is done. Every property of a list of calls goes over these cases
(`outcome_perform`). -/

namespace OverlayVpn

namespace Plane

variable {β : Type}

/-! ## Calls and replies -/

/-- A call of a control plane. -/
inductive Call where
  | start (config : TunnelSettings)
  | stop (deadline : Nat)
  | register (key : String)
  | insertClient (key address : String)
  | eraseClient (key : String)
  | clients
  deriving DecidableEq

/-- What a call is answered. -/
inductive Reply where
  | failed (fault : ControlFault)
  | started
  | stopped
  | registered (registration : Registration)
  | inserted (allowed : String)
  | erased
  | clients (peers : KeyMap RegisteredPeer)
  deriving DecidableEq

/-- The reply that tells a result. -/
def Reply.ofResult {α : Type} (done : α → Reply) : Except ControlFault α → Reply
  | .ok a => done a
  | .error fault => .failed fault

/-- Answers one call. -/
def perform (b : Backend β) (p : Plane β) : Call → Reply × Plane β
  | .start config =>
    let (r, p) := (start b config).run p
    (.ofResult (fun _ => .started) r, p)
  | .stop deadline => (.stopped, ((stop b deadline).run p).2)
  | .register key =>
    let (r, p) := (register b key).run p
    (.ofResult .registered r, p)
  | .insertClient key address =>
    let (r, p) := (insertClient b key address).run p
    (.ofResult .inserted r, p)
  | .eraseClient key =>
    let (r, p) := (eraseClient b key).run p
    (.ofResult (fun _ => .erased) r, p)
  | .clients => (.ofResult .clients p.clients, p)

/-- Answers calls one after another. -/
def serve (b : Backend β) (p : Plane β) : List Call → List Reply × Plane β
  | [] => ([], p)
  | call :: calls =>
    let (reply, p) := p.perform b call
    let (replies, p) := p.serve b calls
    (reply :: replies, p)

/-! ## What the steps leave -/

/-- The control plane after a try to write a peer down. -/
def recorded (p : Plane β) (key address : String) : Plane β := ((record key address).run p).2

/-- The control plane after a try to strike a peer out. -/
def struck (p : Plane β) (key : String) : Plane β := ((strike key).run p).2

/-- The result of handing an address out, and the control plane afterwards. -/
def lease (p : Plane β) : Except Pool.Fault Network × Plane β :=
  (allocate p.registry.addresses).run p

/-- The control plane after an address was taken back, if there is one. -/
def released (p : Plane β) (address : Option Ipv4) : Plane β :=
  match address with
  | some address => { p with allocator := (p.allocator.release address).2 }
  | none => p

/-- When a key was registered; the present moment when it is not written down. -/
def registeredAt (p : Plane β) (key : String) : Timestamp × Plane β :=
  match p.registry.peers.get? key with
  | some record => (record.registeredAt, p)
  | none => readClock.run p

/-- Tells the backend of registered peers one after another, and counts those restored and those
passed over. -/
def restore (b : Backend β) : List (String × RegisteredPeer) → β → (Nat × Nat) × β
  | [], s => ((0, 0), s)
  | (key, record) :: rest, s =>
    let (told, s) := b.allowPeer key [record.allowedAddress] s
    let (counts, s) := restore b rest s
    (tally told counts, s)

/-- The control plane that runs since the present moment. -/
def launched (p : Plane β) (config : TunnelSettings) (publicKey : String) (backend : β) :
    Plane β :=
  { p with
    backend
    running := some { config, publicKey, startedAt := p.host.clock.read.1 }
    host := { p.host with clock := p.host.clock.read.2 } }

@[simp] theorem run_onBackend {α : Type} (f : β → α × β) (p : Plane β) :
    (onBackend f).run p = ((f p.backend).1, { p with backend := (f p.backend).2 }) := rfl

@[simp] theorem run_allowPeer (b : Backend β) (key : String) (allowed : List String)
    (p : Plane β) : (allowPeer b key allowed).run p =
      ((b.allowPeer key allowed p.backend).1,
        { p with backend := (b.allowPeer key allowed p.backend).2 }) := rfl

@[simp] theorem run_dropPeer (b : Backend β) (key : String) (p : Plane β) :
    (dropPeer b key).run p =
      ((b.erasePeer key p.backend).1, { p with backend := (b.erasePeer key p.backend).2 }) := rfl

@[simp] theorem run_lookUp (key : String) (p : Plane β) :
    (lookUp key).run p = (p.registry.peers.get? key, p) := rfl

@[simp] theorem registry_lease (p : Plane β) : p.lease.2.registry = p.registry := rfl

@[simp] theorem disk_lease (p : Plane β) : p.lease.2.host.disk = p.host.disk := rfl

@[simp] theorem backend_recorded (p : Plane β) (key address : String) :
    (p.recorded key address).backend = p.backend := rfl

@[simp] theorem allocator_recorded (p : Plane β) (key address : String) :
    (p.recorded key address).allocator = p.allocator := rfl

@[simp] theorem backend_struck (p : Plane β) (key : String) : (p.struck key).backend = p.backend := rfl

@[simp] theorem allocator_struck (p : Plane β) (key : String) :
    (p.struck key).allocator = p.allocator := rfl

@[simp] theorem backend_registeredAt (p : Plane β) (key : String) :
    (p.registeredAt key).2.backend = p.backend := by
  unfold registeredAt
  split <;> rfl

@[simp] theorem registry_registeredAt (p : Plane β) (key : String) :
    (p.registeredAt key).2.registry = p.registry := by
  unfold registeredAt
  split <;> rfl

@[simp] theorem allocator_registeredAt (p : Plane β) (key : String) :
    (p.registeredAt key).2.allocator = p.allocator := by
  unfold registeredAt
  split <;> rfl

@[simp] theorem running_registeredAt (p : Plane β) (key : String) :
    (p.registeredAt key).2.running = p.running := by
  unfold registeredAt
  split <;> rfl

@[simp] theorem disk_registeredAt (p : Plane β) (key : String) :
    (p.registeredAt key).2.host.disk = p.host.disk := by
  unfold registeredAt
  split <;> rfl

@[simp] theorem backend_released (p : Plane β) (address : Option Ipv4) :
    (p.released address).backend = p.backend := by
  cases address <;> rfl

@[simp] theorem registry_released (p : Plane β) (address : Option Ipv4) :
    (p.released address).registry = p.registry := by
  cases address <;> rfl

@[simp] theorem running_released (p : Plane β) (address : Option Ipv4) :
    (p.released address).running = p.running := by
  cases address <;> rfl

@[simp] theorem host_released (p : Plane β) (address : Option Ipv4) :
    (p.released address).host = p.host := by
  cases address <;> rfl

@[simp] theorem allocator_released (p : Plane β) (address : Ipv4) :
    (p.released (some address)).allocator = (p.allocator.release address).2 := rfl

theorem run_replay (b : Backend β) (entries : List (String × RegisteredPeer)) (p : Plane β) :
    (replay b entries).run p =
      ((restore b entries p.backend).1, { p with backend := (restore b entries p.backend).2 }) := by
  induction entries generalizing p with
  | nil => rfl
  | cons entry entries ih =>
      obtain ⟨key, record⟩ := entry
      simp only [replay, restore, Task.run_then, run_allowPeer, ih, Task.run_pure]

/-! ## What calls come to -/

/-- Why a call is refused before anything is touched, if it is. -/
def refusal (p : Plane β) : Call → Option ControlFault
  | .start config =>
    if p.running.isSome then some .alreadyRunning
    else match validate config with
      | .error reason => some (.invalidConfig reason)
      | .ok _ => none
  | .stop _ => none
  | .register key =>
    if p.running.isNone then some .notRunning
    else match Key.check key with
      | .error fault => some (.invalidKey fault)
      | .ok () => none
  | .insertClient key address =>
    if p.running.isNone then some .notRunning
    else match Key.check key with
      | .error fault => some (.invalidKey fault)
      | .ok () =>
        match Ipv4.ofEntry? address with
        | none => some (.invalidConfig (.clientAddress address))
        | some host =>
          ((p.registry.peers.get? key).filter (·.allowedAddress ≠ (Network.host host).text)).map
            fun existing => .alreadyRegistered key existing.allowedAddress
  | .eraseClient _ | .clients => if p.running.isNone then some .notRunning else none

/-- What a call, run on its own, is answered and what it leaves. -/
inductive Outcome (b : Backend β) (p : Plane β) : Call → Reply → Plane β → Prop where
  | refused {call : Call} {fault : ControlFault} (h : p.refusal call = some fault) :
      Outcome b p call (.failed fault) p
  | startFailed {config : TunnelSettings} {fault : BackendFault} {backend : β}
      (hstopped : p.running = none) (hstart : b.start config p.backend = (.error fault, backend))
      (hvalid : (validate config).isOk = true) :
      Outcome b p (.start config) (.failed (.backend fault)) { p with backend }
  | started {config : TunnelSettings} {publicKey : String} {backend : β}
      (hstopped : p.running = none) (hvalid : validate config = .ok publicKey)
      (hstart : b.start config p.backend = (.ok (), backend)) :
      Outcome b p (.start config) .started
        (p.launched config publicKey (restore b p.registry.peers.entries backend).2)
  | idle {deadline : Nat} (hstopped : p.running = none) : Outcome b p (.stop deadline) .stopped p
  | stopped {deadline : Nat} {backend : β} (hrunning : p.running.isSome = true)
      (hstop : b.stop (some deadline) p.backend = (some (.ok ()), backend)) :
      Outcome b p (.stop deadline) .stopped { p with running := none, backend }
  | aborted {deadline : Nat} {ended : Option (Except BackendFault Unit)} {backend : β}
      (hrunning : p.running.isSome = true)
      (hstop : b.stop (some deadline) p.backend = (ended, backend)) :
      Outcome b p (.stop deadline) .stopped { p with running := none, backend := b.abort backend }
  | knownFailed {key : String} {record : RegisteredPeer} {fault : BackendFault} {backend : β}
      (hrunning : p.running.isSome = true) (hrecord : p.registry.peers.get? key = some record)
      (htold : b.allowPeer key [record.allowedAddress] p.backend = (.error fault, backend))
      (hkey : Key.check key = .ok ()) :
      Outcome b p (.register key) (.failed (.backend fault)) { p with backend }
  | known {key : String} {running : ServerRun} {record : RegisteredPeer} {backend : β}
      (hrunning : p.running = some running) (hrecord : p.registry.peers.get? key = some record)
      (htold : b.allowPeer key [record.allowedAddress] p.backend = (.ok (), backend))
      (hkey : Key.check key = .ok ()) :
      Outcome b p (.register key)
        (.registered ⟨record.allowedAddress, record.registeredAt, running.contact⟩)
        { p with backend }
  | exhausted {key : String} {fault : Pool.Fault} (hrunning : p.running.isSome = true)
      (hrecord : p.registry.peers.get? key = none) (hlease : p.lease.1 = .error fault)
      (hkey : Key.check key = .ok ()) :
      Outcome b p (.register key) (.failed (.poolExhausted fault)) p.lease.2
  | registerFailed {key : String} {address : Ipv4} {fault : BackendFault} {backend : β}
      (hrunning : p.running.isSome = true) (hrecord : p.registry.peers.get? key = none)
      (hlease : p.lease.1 = .ok (.host address))
      (htold : b.allowPeer key [(Network.host address).text] p.backend = (.error fault, backend))
      (hkey : Key.check key = .ok ()) :
      Outcome b p (.register key) (.failed (.backend fault))
        ({ p.lease.2 with backend }.released (some address))
  | registered {key : String} {running : ServerRun} {address : Ipv4} {backend : β} {q : Plane β}
      (hrunning : p.running = some running) (hrecord : p.registry.peers.get? key = none)
      (hlease : p.lease.1 = .ok (.host address))
      (htold : b.allowPeer key [(Network.host address).text] p.backend = (.ok (), backend))
      (hq : q = { p.lease.2 with backend }.recorded key (Network.host address).text)
      (hkey : Key.check key = .ok ()) :
      Outcome b p (.register key)
        (.registered ⟨(Network.host address).text, (q.registeredAt key).1, running.contact⟩)
        (q.registeredAt key).2
  | insertFailed {key address : String} {host : Ipv4} {fault : BackendFault} {backend : β}
      (hrunning : p.running.isSome = true) (hhost : Ipv4.ofEntry? address = some host)
      (hrecord : ∀ record, p.registry.peers.get? key = some record →
        record.allowedAddress = (Network.host host).text)
      (htold : b.allowPeer key [(Network.host host).text] p.backend = (.error fault, backend))
      (hkey : Key.check key = .ok ()) :
      Outcome b p (.insertClient key address) (.failed (.backend fault)) { p with backend }
  | inserted {key address : String} {host : Ipv4} {backend : β}
      (hrunning : p.running.isSome = true) (hhost : Ipv4.ofEntry? address = some host)
      (hrecord : ∀ record, p.registry.peers.get? key = some record →
        record.allowedAddress = (Network.host host).text)
      (htold : b.allowPeer key [(Network.host host).text] p.backend = (.ok (), backend))
      (hkey : Key.check key = .ok ()) :
      Outcome b p (.insertClient key address) (.inserted (Network.host host).text)
        ({ p with backend }.recorded key (Network.host host).text)
  | eraseFailed {key : String} {fault : BackendFault} {backend : β}
      (hrunning : p.running.isSome = true)
      (hdropped : b.erasePeer key p.backend = (.error fault, backend)) :
      Outcome b p (.eraseClient key) (.failed (.backend fault)) { p with backend }
  | erased {key : String} {backend : β} (hrunning : p.running.isSome = true)
      (hdropped : b.erasePeer key p.backend = (.ok (), backend)) :
      Outcome b p (.eraseClient key) .erased
        (({ p with backend }.struck key).released
          ((p.registry.peers.get? key).bind fun r => Ipv4.ofEntry? r.allowedAddress))
  | clients (hrunning : p.running.isSome = true) : Outcome b p .clients (.clients p.registry.peers) p

/-! ## Every call has an outcome -/

/-- A control plane that does not run refuses what needs it to run. -/
theorem outcome_notRunning (b : Backend β) {p : Plane β} (hrunning : p.running = none) {call : Call}
    (hrefusal : p.refusal call = some .notRunning) :
    Outcome b p call (p.perform b call).1 (p.perform b call).2 := by
  have hrefused := Outcome.refused (b := b) hrefusal
  cases call with
  | start config =>
      simp only [refusal, hrunning, Option.isSome_none, Bool.false_eq_true, if_false] at hrefusal
      split at hrefusal <;> cases hrefusal
  | stop deadline => cases hrefusal
  | register key =>
      simp only [perform, register, Task.run_then, Task.run_look, hrunning]
      exact hrefused
  | insertClient key address =>
      simp only [perform, insertClient, Task.run_then, Task.run_look, hrunning, Option.isNone_none,
        if_true]
      exact hrefused
  | eraseClient key =>
      simp only [perform, eraseClient, Task.run_then, Task.run_look, hrunning, Option.isNone_none,
        if_true]
      exact hrefused
  | clients =>
      simp only [perform, Plane.clients, hrunning, Option.isSome_none, Bool.false_eq_true, if_false]
      exact hrefused

theorem outcome_start (b : Backend β) (p : Plane β) (config : TunnelSettings) :
    Outcome b p (.start config) (p.perform b (.start config)).1 (p.perform b (.start config)).2 := by
  cases hrunning : p.running with
  | some running =>
      have hrefusal : p.refusal (.start config) = some .alreadyRunning := by
        simp [refusal, hrunning]
      simp only [perform, start, Task.run_then, Task.run_look, hrunning, Option.isSome_some, if_true]
      exact .refused hrefusal
  | none =>
      simp only [perform, start, Task.run_then, Task.run_look, hrunning, Option.isSome_none,
        Bool.false_eq_true, if_false]
      cases hvalid : validate config with
      | error reason =>
          have hrefusal : p.refusal (.start config) = some (.invalidConfig reason) := by
            simp [refusal, hrunning, hvalid]
          exact .refused hrefusal
      | ok publicKey =>
          simp only [Task.run_then, run_onBackend]
          cases hstart : b.start config p.backend with
          | mk result backend =>
              cases result with
              | error fault => exact .startFailed hrunning hstart (by rw [hvalid]; rfl)
              | ok u =>
                  simp only [Task.run_then, Task.run_look, run_replay, Task.run_change]
                  exact .started hrunning hvalid hstart

theorem outcome_stop (b : Backend β) (p : Plane β) (deadline : Nat) :
    Outcome b p (.stop deadline) (p.perform b (.stop deadline)).1
      (p.perform b (.stop deadline)).2 := by
  cases hrunning : p.running with
  | none =>
      simp only [perform, stop, Task.run_change, hrunning, Option.isNone_none, if_true]
      exact .idle hrunning
  | some running =>
      have hsome : p.running.isSome = true := by rw [hrunning]; rfl
      simp only [perform, stop, Task.run_change, hrunning, Option.isNone_some, Bool.false_eq_true,
        if_false]
      split
      · next hstop => exact .stopped hsome hstop
      · next hstop => exact .aborted hsome hstop

/-- A key that is not written down with another address is written down without a conflict. -/
theorem record_ne_conflict {key address : String} {p : Plane β}
    (h : ∀ record, p.registry.peers.get? key = some record → record.allowedAddress = address)
    (other existing : String) :
    ((record key address).run p).1 ≠ .error (.conflict other existing) := by
  show (p.registry.add p.host key address).1 ≠ _
  rcases Registry.add_cases p.registry p.host key address with ⟨_, _, _, heq⟩ |
    ⟨found, hfound, hne, -⟩ | ⟨_, _, _, ⟨_, _, heq⟩ | ⟨_, _, _, heq⟩⟩
  · rw [heq]; simp
  · exact absurd (h found hfound) hne
  · rw [heq]; simp
  · rw [heq]; simp

/-- A client that may be added: the backend is told of it, and then it is written down. -/
theorem run_addRunning (b : Backend β) {key address : String} {host : Ipv4} {p : Plane β}
    (hkey : Key.check key = .ok ()) (hhost : Ipv4.ofEntry? address = some host)
    (hrecord : ∀ record, p.registry.peers.get? key = some record →
      record.allowedAddress = (Network.host host).text) :
    (addRunning b key address).run p =
      match b.allowPeer key [(Network.host host).text] p.backend with
      | (.error fault, backend) => (.error (.backend fault), { p with backend })
      | (.ok (), backend) => (.ok (Network.host host).text,
          { p with backend }.recorded key (Network.host host).text) := by
  have hfilter : (p.registry.peers.get? key).filter
      (·.allowedAddress ≠ (Network.host host).text) = none := by
    rw [Option.filter_eq_none_iff]
    intro record hfound
    simp [hrecord record hfound]
  simp only [addRunning, hkey, hhost, Task.run_then, run_lookUp, hfilter, run_allowPeer]
  cases htold : b.allowPeer key [(Network.host host).text] p.backend with
  | mk result backend =>
      cases result with
      | error fault => rfl
      | ok u =>
          simp only [Task.run_then]
          have hconflict : ∀ other existing,
              ((record key (Network.host host).text).run { p with backend }).1 ≠
                .error (.conflict other existing) := record_ne_conflict hrecord
          split
          · next hresult => exact absurd hresult (hconflict _ _)
          · rfl

theorem outcome_insertClient (b : Backend β) {p : Plane β} {running : ServerRun}
    (hrunning : p.running = some running) (key address : String) :
    Outcome b p (.insertClient key address) (p.perform b (.insertClient key address)).1
      (p.perform b (.insertClient key address)).2 := by
  have hsome : p.running.isSome = true := by rw [hrunning]; rfl
  simp only [perform, insertClient, Task.run_then, Task.run_look, hrunning, Option.isNone_some,
    Bool.false_eq_true, if_false]
  cases hkey : Key.check key with
  | error fault =>
      have hrefusal : p.refusal (.insertClient key address) = some (.invalidKey fault) := by
        simp [refusal, hrunning, hkey]
      simp only [addRunning, hkey]
      exact .refused hrefusal
  | ok u =>
      cases hhost : Ipv4.ofEntry? address with
      | none =>
          have hrefusal : p.refusal (.insertClient key address) =
              some (.invalidConfig (.clientAddress address)) := by
            simp [refusal, hrunning, hkey, hhost]
          simp only [addRunning, hkey, hhost]
          exact .refused hrefusal
      | some host =>
          cases hfilter : (p.registry.peers.get? key).filter
              (·.allowedAddress ≠ (Network.host host).text) with
          | some existing =>
              have hrefusal : p.refusal (.insertClient key address) =
                  some (.alreadyRegistered key existing.allowedAddress) := by
                simp only [refusal, hrunning, hkey, hhost, hfilter]
                rfl
              simp only [addRunning, hkey, hhost, Task.run_then, run_lookUp, hfilter]
              exact .refused hrefusal
          | none =>
              -- a record that the filter does not keep holds the address that is asked for
              have hrecord : ∀ record, p.registry.peers.get? key = some record →
                  record.allowedAddress = (Network.host host).text := by
                intro record hfound
                have hsame := Option.filter_eq_none_iff.mp hfilter record hfound
                simpa using hsame
              rw [run_addRunning b hkey hhost hrecord]
              cases htold : b.allowPeer key [(Network.host host).text] p.backend with
              | mk result backend =>
                  cases result with
                  | error fault => exact .insertFailed hsome hhost hrecord htold hkey
                  | ok u => exact .inserted hsome hhost hrecord htold hkey

theorem outcome_eraseClient (b : Backend β) {p : Plane β} {running : ServerRun}
    (hrunning : p.running = some running) (key : String) :
    Outcome b p (.eraseClient key) (p.perform b (.eraseClient key)).1
      (p.perform b (.eraseClient key)).2 := by
  have hsome : p.running.isSome = true := by rw [hrunning]; rfl
  simp only [perform, eraseClient, Task.run_then, Task.run_look, hrunning, Option.isNone_some,
    Bool.false_eq_true, if_false]
  simp only [run_dropPeer]
  cases hdropped : b.erasePeer key p.backend with
  | mk result backend =>
      cases result with
      | error fault => exact .eraseFailed hsome hdropped
      | ok u =>
          have hdone := Outcome.erased hsome hdropped
          simp only [Task.run_then, run_lookUp]
          cases haddress : (p.registry.peers.get? key).bind
              fun r => Ipv4.ofEntry? r.allowedAddress with
          | none =>
              rw [haddress] at hdone
              exact hdone
          | some address =>
              rw [haddress] at hdone
              exact hdone

/-- An address that is handed out is one of a host. -/
theorem allocate_eq_host {p : Plane β} {known : List String} {assigned : Network}
    (h : ((allocate known).run p).1 = .ok assigned) : ∃ address, assigned = .host address := by
  have hallocate : (p.allocator.allocate known p.host.clock.read.1).1 = .ok assigned := h
  unfold Allocator.allocate at hallocate
  dsimp only at hallocate
  split at hallocate
  · exact ⟨_, (Except.ok.inj hallocate).symm⟩
  · cases hallocate

/-- A new key gets an address of its own, of which the backend is told before it is written down. -/
theorem outcome_registerNew (b : Backend β) {p : Plane β} {running : ServerRun}
    (hrunning : p.running = some running) {key : String} (hkey : Key.check key = .ok ())
    (hrecord : p.registry.peers.get? key = none) :
    Outcome b p (.register key) (p.perform b (.register key)).1
      (p.perform b (.register key)).2 := by
  have hsome : p.running.isSome = true := by rw [hrunning]; rfl
  have hallocate : (allocate p.registry.addresses).run p = p.lease := rfl
  simp only [perform, register, Task.run_then, Task.run_look, hrunning, hkey, run_lookUp, hrecord,
    hallocate]
  cases hlease : p.lease.1 with
  | error fault => exact .exhausted hsome hrecord hlease hkey
  | ok assigned =>
      obtain ⟨address, rfl⟩ := allocate_eq_host hlease
      have hnew : ∀ record, p.lease.2.registry.peers.get? key = some record →
          record.allowedAddress = (Network.host address).text := by
        intro record hfound
        have hnone : p.lease.2.registry.peers.get? key = none := hrecord
        rw [hnone] at hfound
        cases hfound
      simp only [Task.run_then, run_addRunning b hkey (Network.ofEntry?_host address) hnew]
      cases htold : b.allowPeer key [(Network.host address).text] p.lease.2.backend with
      | mk result backend =>
          cases result with
          | error fault => exact .registerFailed hsome hrecord hlease htold hkey
          | ok u =>
              simp only [Task.run_then, run_lookUp]
              generalize hq : { p.lease.2 with backend }.recorded key
                (Network.host address).text = q
              have hdone := Outcome.registered hrunning hrecord hlease htold hq.symm hkey
              unfold registeredAt at hdone
              -- when the record could not be written, the reply tells the present moment
              cases hwritten : q.registry.peers.get? key with
              | some record =>
                  simp only [hwritten] at hdone
                  exact hdone
              | none =>
                  simp only [hwritten] at hdone
                  exact hdone

theorem outcome_register (b : Backend β) {p : Plane β} {running : ServerRun}
    (hrunning : p.running = some running) (key : String) :
    Outcome b p (.register key) (p.perform b (.register key)).1
      (p.perform b (.register key)).2 := by
  have hsome : p.running.isSome = true := by rw [hrunning]; rfl
  cases hkey : Key.check key with
  | error fault =>
      have hrefusal : p.refusal (.register key) = some (.invalidKey fault) := by
        simp [refusal, hrunning, hkey]
      simp only [perform, register, Task.run_then, Task.run_look, hrunning, hkey]
      exact .refused hrefusal
  | ok u =>
      cases hrecord : p.registry.peers.get? key with
      | none => exact outcome_registerNew b hrunning hkey hrecord
      | some record =>
          simp only [perform, register, Task.run_then, Task.run_look, hrunning, hkey, run_lookUp,
            hrecord]
          simp only [run_allowPeer]
          cases htold : b.allowPeer key [record.allowedAddress] p.backend with
          | mk result backend =>
              cases result with
              | error fault => exact .knownFailed hsome hrecord htold hkey
              | ok u => exact .known hrunning hrecord htold hkey

/-- **Every call has an outcome.** -/
theorem outcome_perform (b : Backend β) (p : Plane β) (call : Call) :
    Outcome b p call (p.perform b call).1 (p.perform b call).2 := by
  cases call with
  | start config => exact outcome_start b p config
  | stop deadline => exact outcome_stop b p deadline
  | register key =>
      cases hrunning : p.running with
      | none => exact outcome_notRunning b hrunning (by simp [refusal, hrunning])
      | some running => exact outcome_register b hrunning key
  | insertClient key address =>
      cases hrunning : p.running with
      | none => exact outcome_notRunning b hrunning (by simp [refusal, hrunning])
      | some running => exact outcome_insertClient b hrunning key address
  | eraseClient key =>
      cases hrunning : p.running with
      | none => exact outcome_notRunning b hrunning (by simp [refusal, hrunning])
      | some running => exact outcome_eraseClient b hrunning key
  | clients =>
      cases hrunning : p.running with
      | none => exact outcome_notRunning b hrunning (by simp [refusal, hrunning])
      | some running =>
          simp only [perform, Plane.clients, hrunning, Option.isSome_some, if_true]
          exact .clients (by rw [hrunning]; rfl)

/-! ## Writes of the registry's file -/

/-- Whether a reply tells a failure. -/
def Reply.isFailed : Reply → Bool
  | .failed _ => true
  | _ => false

/-- What a call writes into the registry's file once it has come through with the backend. -/
def writes (p : Plane β) : Call → Option (KeyMap RegisteredPeer)
  | .register key =>
    match p.registry.peers.get? key, p.lease with
    | none, (.ok assigned, q) =>
      some (p.registry.peers.insert key ⟨key, assigned.text, q.host.clock.read.1⟩)
    | _, _ => none
  | .insertClient key address =>
    match p.registry.peers.get? key, Ipv4.ofEntry? address with
    | none, some host =>
      some (p.registry.peers.insert key ⟨key, (Network.host host).text, p.host.clock.read.1⟩)
    | _, _ => none
  | .eraseClient key => (p.registry.peers.get? key).map fun _ => p.registry.peers.erase key
  | .start _ | .stop _ | .clients => none

section

variable {p : Plane β} {key : String}

/-- A registration writes down the record of the address that it was given. -/
theorem writes_register {address : Ipv4} (hnew : p.registry.peers.get? key = none)
    (hlease : p.lease.1 = .ok (.host address)) :
    p.writes (.register key) = some (p.registry.peers.insert key
      ⟨key, (Network.host address).text, p.lease.2.host.clock.read.1⟩) := by
  have hpair : p.lease = (.ok (.host address), p.lease.2) := Prod.ext hlease rfl
  simp only [writes, hnew]
  rw [hpair]

theorem writes_insertClient {address : String} {host : Ipv4}
    (hnew : p.registry.peers.get? key = none) (hhost : Ipv4.ofEntry? address = some host) :
    p.writes (.insertClient key address) = some (p.registry.peers.insert key
      ⟨key, (Network.host host).text, p.host.clock.read.1⟩) := by
  simp only [writes, hnew, hhost]

theorem writes_eraseClient {record : RegisteredPeer}
    (hfound : p.registry.peers.get? key = some record) :
    p.writes (.eraseClient key) = some (p.registry.peers.erase key) := by
  rw [writes, hfound, Option.map_some]

end

/-- Whether the write that a call makes succeeds; a call that fails makes none. -/
def writeSucceeds (b : Backend β) (p : Plane β) (call : Call) : Bool :=
  (p.perform b call).1.isFailed ||
    (p.writes call).all fun peers => (p.registry.commit p.host.disk peers).1.isOk

/-- Whether every write that is made while calls are answered succeeds. -/
def writesSucceed (b : Backend β) (p : Plane β) : List Call → Bool
  | [] => true
  | call :: calls => p.writeSucceeds b call && (p.perform b call).2.writesSucceed b calls

/-! ## Lists of calls -/

theorem serve_append (b : Backend β) (p : Plane β) (before after : List Call) :
    p.serve b (before ++ after) =
      ((p.serve b before).1 ++ ((p.serve b before).2.serve b after).1,
        ((p.serve b before).2.serve b after).2) := by
  induction before generalizing p with
  | nil => rfl
  | cons call before ih => simp only [List.cons_append, serve, ih]

theorem writesSucceed_append (b : Backend β) (p : Plane β) (before after : List Call) :
    p.writesSucceed b (before ++ after) =
      (p.writesSucceed b before && (p.serve b before).2.writesSucceed b after) := by
  induction before generalizing p with
  | nil => rfl
  | cons call before ih => simp only [List.cons_append, writesSucceed, serve, ih, Bool.and_assoc]

/-! ## What a write leaves in the registry -/

/-- A peer that could be written down is in the registry, with the others as they were. -/
theorem get?_recorded {p : Plane β} {key address : String}
    (hrecord : ∀ record, p.registry.peers.get? key = some record → record.allowedAddress = address)
    (hwrite : p.registry.peers.get? key = none →
      (p.registry.commit p.host.disk
        (p.registry.peers.insert key ⟨key, address, p.host.clock.read.1⟩)).1.isOk = true) :
    ∃ record : RegisteredPeer, record.allowedAddress = address ∧
      ∀ other, (p.recorded key address).registry.peers.get? other =
        if other = key then some record else p.registry.peers.get? other := by
  show ∃ record : RegisteredPeer, record.allowedAddress = address ∧
    ∀ other, (p.registry.add p.host key address).2.1.peers.get? other = _
  rcases Registry.add_cases p.registry p.host key address with ⟨record, hfound, haddress, heq⟩ |
    ⟨record, hfound, hne, -⟩ | ⟨hnone, record, rfl, ⟨disk', -, heq⟩ | ⟨error, disk', hfailed, -⟩⟩
  · refine ⟨record, haddress, fun other => ?_⟩
    rw [heq]
    split
    · next hother => rw [hother, hfound]
    · rfl
  · exact absurd (hrecord record hfound) hne
  · refine ⟨⟨key, address, p.host.clock.read.1⟩, rfl, fun other => ?_⟩
    rw [heq]
    exact KeyMap.get?_insert p.registry.peers key other _
  · have hok := hwrite hnone
    rw [Registry.commit, hfailed] at hok
    cases hok

/-- A peer that could be struck out is not in the registry, with the others as they were. -/
theorem get?_struck {p : Plane β} {key : String}
    (hwrite : ∀ record, p.registry.peers.get? key = some record →
      (p.registry.commit p.host.disk (p.registry.peers.erase key)).1.isOk = true) (other : String) :
    (p.struck key).registry.peers.get? other =
      if other = key then none else p.registry.peers.get? other := by
  show (p.registry.remove p.host key).2.1.peers.get? other = _
  rcases Registry.remove_cases p.registry p.host key with ⟨hnone, heq⟩ |
    ⟨record, hfound, ⟨disk', -, heq⟩ | ⟨error, disk', hfailed, -⟩⟩
  · rw [heq]
    split
    · next hother => rw [hother, hnone]
    · rfl
  · rw [heq]
    exact KeyMap.get?_erase p.registry.peers key other
  · have hok := hwrite record hfound
    rw [Registry.commit, hfailed] at hok
    cases hok

/-- A new peer is written down, or the registry is left as it was. -/
theorem peers_recorded {p : Plane β} {key : String} (hnone : p.registry.peers.get? key = none)
    (address : String) :
    (∃ record : RegisteredPeer, record.allowedAddress = address ∧
      (p.recorded key address).registry.peers = p.registry.peers.insert key record) ∨
    (p.recorded key address).registry.peers = p.registry.peers := by
  show (∃ record : RegisteredPeer, record.allowedAddress = address ∧
    (p.registry.add p.host key address).2.1.peers = _) ∨
      (p.registry.add p.host key address).2.1.peers = _
  rcases Registry.add_cases p.registry p.host key address with ⟨record, hfound, -, -⟩ |
    ⟨record, hfound, -, -⟩ | ⟨-, record, rfl, ⟨disk', -, heq⟩ | ⟨error, disk', -, heq⟩⟩
  · rw [hnone] at hfound
    cases hfound
  · rw [hnone] at hfound
    cases hfound
  · exact Or.inl ⟨⟨key, address, p.host.clock.read.1⟩, rfl, by rw [heq]⟩
  · exact Or.inr (by rw [heq])

/-- A peer is struck out, or the registry is left as it was. -/
theorem peers_struck (p : Plane β) (key : String) :
    (p.struck key).registry.peers = p.registry.peers.erase key ∨
      (p.struck key).registry.peers = p.registry.peers := by
  show (p.registry.remove p.host key).2.1.peers = _ ∨ (p.registry.remove p.host key).2.1.peers = _
  rcases Registry.remove_cases p.registry p.host key with ⟨-, heq⟩ |
    ⟨record, -, ⟨disk', -, heq⟩ | ⟨error, disk', -, heq⟩⟩
  · exact Or.inr (by rw [heq])
  · exact Or.inl (by rw [heq])
  · exact Or.inr (by rw [heq])

/-- The file says what memory holds. -/
def IsStored (p : Plane β) : Prop :=
  Registry.Stored p.host.disk p.registry.path p.registry.peers

theorem IsStored.recorded {p : Plane β} (h : p.IsStored) (key address : String) :
    (p.recorded key address).IsStored := by
  have hstored := Registry.stored_add h key address
  have hpath := Registry.path_add p.registry p.host key address
  show Registry.Stored (p.registry.add p.host key address).2.2.disk
    (p.registry.add p.host key address).2.1.path (p.registry.add p.host key address).2.1.peers
  rw [hpath]
  exact hstored

theorem IsStored.struck {p : Plane β} (h : p.IsStored) (key : String) : (p.struck key).IsStored := by
  have hstored := Registry.stored_remove h key
  have hpath := Registry.path_remove p.registry p.host key
  show Registry.Stored (p.registry.remove p.host key).2.2.disk
    (p.registry.remove p.host key).2.1.path (p.registry.remove p.host key).2.1.peers
  rw [hpath]
  exact hstored

/-! ## Opening -/

/-- **What a control plane is opened with**: the registry that was read, and a fresh allocator. -/
theorem openAt_eq_ok {host : Host} {path : Path} {config : PoolConfig} {backend : β} {p : Plane β}
    (h : openAt host path config backend = .ok p) :
    ∃ registry disk pool, Registry.openAt host.disk path = (.ok registry, disk) ∧
      Pool.create config.cidr config.gateway = .ok pool ∧
      p = { backend, registry, allocator := .create pool config.strategy,
            host := { host with disk } } := by
  unfold openAt at h
  split at h
  · cases h
  · next registry disk hregistry =>
      unfold Allocator.ofConfig at h
      cases hpool : Pool.create config.cidr config.gateway with
      | error fault =>
          rw [hpool] at h
          cases h
      | ok pool =>
          rw [hpool] at h
          exact ⟨registry, disk, pool, hregistry, rfl, (Except.ok.inj h).symm⟩

/-! ## A control plane to try calls on -/

/-- A host without files at a fixed moment; its file system has failures in store. -/
def trialHost (failures : List (Option DiskFailure)) : Host :=
  { disk := { failures }, clock := .still ⟨⟨2024, 5, 1⟩, ⟨12, 0, 0, 0⟩, by decide, by decide⟩ }

/-- Where the registry is kept. -/
def trialPath : Path := .ofText "state/peers.json"

/-- A pool of six addresses, one of them the gateway's. -/
def trialPool : PoolConfig := { cidr := "10.0.0.0/29", gateway := "10.0.0.1" }

/-- The settings that a trial starts with. -/
def trialSettings : TunnelSettings :=
  { interfaceName := "wg0", privateKey := "HIgo9xNzJMWLKASShiTqIybxZ0U3wGLiUeJ1PKf8ykw="
    listenPort := 51820, serverCidr := "10.0.0.1/29" }

/-- The control plane that is opened on such a host. -/
def trial (backend : β) (failures : List (Option DiskFailure)) : Plane β :=
  { backend
    registry := { path := trialPath }
    allocator := .create
      (Pool.ofNetwork ⟨.ofOctets 10 0 0 0, 29, by decide⟩ (.ofOctets 10 0 0 1)) .tracked
    host := trialHost failures }

theorem create_trialPool : Pool.create trialPool.cidr trialPool.gateway =
    .ok (Pool.ofNetwork ⟨.ofOctets 10 0 0 0, 29, by decide⟩ (.ofOctets 10 0 0 1)) := by
  decide +kernel

/-- To open a control plane takes one operation of the file system. -/
theorem openAt_trial (backend : β) (failures : List (Option DiskFailure)) :
    openAt (trialHost (none :: failures)) trialPath trialPool backend =
      .ok (trial backend failures) := by
  have hregistry : Registry.openAt (trialHost (none :: failures)).disk trialPath =
      (.ok { path := trialPath }, (trialHost failures).disk) := rfl
  simp only [openAt, Allocator.ofConfig, hregistry, create_trialPool]
  rfl

end Plane

end OverlayVpn
