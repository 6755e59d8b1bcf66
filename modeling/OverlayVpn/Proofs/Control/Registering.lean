import OverlayVpn.Proofs.Control.Calls
import OverlayVpn.Proofs.Interleaving

set_option autoImplicit false

/-! # Where a registration stands

A registration looks at the registry twice, gets itself an address in between, tells the backend
and writes its address down; when another caller was faster it puts the backend's peer back and
returns its address. `RegisterPoint` names the points between these steps and `registerStep` says
what each step does; a registration of a valid key goes through these points
(`follows_register`). -/

namespace OverlayVpn

namespace Plane

variable {β : Type}

/-- What the next step of a registration is. -/
inductive RegisterPoint where
  | entering
  | lookingUp (running : ServerRun)
  /-- The key is registered. -/
  | renewing (running : ServerRun) (record : RegisteredPeer)
  | collecting (running : ServerRun)
  | allocating (running : ServerRun) (known : List String)
  /-- The address is allocated, and the registry is looked at again. -/
  | checking (running : ServerRun) (address : Ipv4)
  | telling (running : ServerRun) (address : Ipv4)
  | recording (running : ServerRun) (address : Ipv4)
  /-- The address is written down. -/
  | finding (running : ServerRun) (address : Ipv4)
  | readingClock (running : ServerRun) (address : Ipv4)
  /-- Another caller was faster. -/
  | dropping (address : Ipv4) (existing : String)
  | reinstating (address : Ipv4) (existing : String)
  | releasing (address : Ipv4) (fault : ControlFault)
  /-- The call is done and keeps the address that it allocated, if there is one. -/
  | finished (kept : Option Ipv4) (result : Except ControlFault Registration)

namespace RegisterPoint

/-- How a call ended. -/
def result : RegisterPoint → Option (Except ControlFault Registration)
  | finished _ result => some result
  | _ => none

/-- The address that a call has allocated and not given back. -/
def lease : RegisterPoint → Option Ipv4
  | checking _ address | telling _ address | recording _ address | finding _ address
  | readingClock _ address | dropping address _ | reinstating address _ | releasing address _ =>
    some address
  | finished kept _ => kept
  | _ => none

end RegisterPoint

open RegisterPoint

/-- The record, if it holds another address. -/
def rival (allowed : String) (existing : Option RegisteredPeer) : Option RegisteredPeer :=
  existing.filter (·.allowedAddress ≠ allowed)

/-- What the next step of a registration of a valid key does. -/
def registerStep (b : Backend β) (key : String) :
    RegisterPoint → Plane β → RegisterPoint × Plane β
  | entering, p =>
    (match p.running with
      | none => finished none (.error .notRunning)
      | some running => lookingUp running, p)
  | lookingUp running, p =>
    (match p.registry.peers.get? key with
      | some record => renewing running record
      | none => collecting running, p)
  | renewing running record, p =>
    (match (b.allowPeer key [record.allowedAddress] p.backend).1 with
      | .error fault => finished none (.error (.backend fault))
      | .ok () => finished none
        (.ok ⟨record.allowedAddress, record.registeredAt, running.contact⟩),
      { p with backend := (b.allowPeer key [record.allowedAddress] p.backend).2 })
  | collecting running, p => (allocating running p.registry.addresses, p)
  | allocating running known, p =>
    (match ((allocate known).run p).1 with
      | .error fault => finished none (.error (.poolExhausted fault))
      | .ok assigned => checking running assigned.address, ((allocate known).run p).2)
  | checking running address, p =>
    (match rival (Network.host address).text (p.registry.peers.get? key) with
      | some existing => releasing address (.alreadyRegistered key existing.allowedAddress)
      | none => telling running address, p)
  | telling running address, p =>
    (match (b.allowPeer key [(Network.host address).text] p.backend).1 with
      | .error fault => releasing address (.backend fault)
      | .ok () => recording running address,
      { p with backend := (b.allowPeer key [(Network.host address).text] p.backend).2 })
  | recording running address, p =>
    (match ((record key (Network.host address).text).run p).1 with
      | .error (.conflict _ existing) => dropping address existing
      | _ => finding running address, ((record key (Network.host address).text).run p).2)
  | finding running address, p =>
    (match p.registry.peers.get? key with
      | some record => finished (some address)
        (.ok ⟨(Network.host address).text, record.registeredAt, running.contact⟩)
      | none => readingClock running address, p)
  | readingClock running address, p =>
    (finished (some address)
      (.ok ⟨(Network.host address).text, (readClock.run p).1, running.contact⟩),
      (readClock.run p).2)
  | dropping address existing, p =>
    (reinstating address existing, { p with backend := (b.erasePeer key p.backend).2 })
  | reinstating address existing, p =>
    (releasing address (.alreadyRegistered key existing),
      { p with backend := (b.allowPeer key [existing] p.backend).2 })
  | releasing address fault, p =>
    (finished none (.error fault), { p with allocator := (p.allocator.release address).2 })
  | finished kept result, p => (finished kept result, p)

/-! ## A registration goes through the points -/

/-- What follows in a registration when the client was added, or was not. -/
def conclude (key : String) (running : ServerRun) (assigned : Network) :
    Except ControlFault String → Task (Plane β) (Except ControlFault Registration)
  | .ok allowed => do
    let registeredAt ← match ← lookUp key with
      | some record => pure record.registeredAt
      | none => readClock
    return .ok { assignedAddress := allowed, registeredAt, server := running.contact }
  | .error fault => do
    release assigned.address
    return .error fault

variable {b : Backend β} {key : String} {running : ServerRun} {address : Ipv4}

theorem follows_releasing (running : ServerRun) (fault : ControlFault) :
    Task.Follows (registerStep b key) result
      (conclude key running (.host address) (.error fault)) (releasing address fault) :=
  .step rfl (fun _ => rfl) fun _ => .done rfl

theorem follows_finding :
    Task.Follows (registerStep b key) result
      (conclude key running (.host address) (.ok (Network.host address).text))
      (finding running address) := by
  refine .step rfl (fun _ => rfl) fun p => ?_
  simp only [registerStep]
  cases hrecord : p.registry.peers.get? key with
  | some record => exact .done rfl
  | none => exact .step rfl (fun _ => rfl) fun _ => .done rfl

/-- What follows in the addition of a client when the client was written down, or was not. -/
def settle (b : Backend β) (key allowed : String) :
    Except Registry.Fault RegisteredPeer → Task (Plane β) (Except ControlFault String)
  | .error (.conflict _ existing) => do
    reinstate b key existing
    return .error (.alreadyRegistered key existing)
  | _ => return .ok allowed

theorem follows_dropping (existing other : String) :
    Task.Follows (registerStep b key) result
      (settle b key (Network.host address).text (.error (.conflict other existing)) >>=
        conclude key running (.host address)) (dropping address existing) := by
  refine .step rfl (fun _ => rfl) fun _ => ?_
  refine .step rfl (fun _ => rfl) fun _ => ?_
  exact follows_releasing running _

theorem follows_recording :
    Task.Follows (registerStep b key) result
      ((record key (Network.host address).text >>= settle b key (Network.host address).text) >>=
        conclude key running (.host address)) (recording running address) := by
  refine .step rfl (fun _ => rfl) fun p => ?_
  show Task.Follows _ _ (settle b key (Network.host address).text
    ((record key (Network.host address).text).run p).1 >>= _) _
  simp only [registerStep]
  cases hrecorded : ((record key (Network.host address).text).run p).1 with
  | ok written => exact follows_finding
  | error fault =>
      cases fault with
      | conflict other existing => exact follows_dropping existing other
      | io | corrupt | notFound => exact follows_finding

/-- What follows in the addition of a client when the backend was told, or was not. -/
def writeDown (b : Backend β) (key allowed : String) :
    Except BackendFault Unit → Task (Plane β) (Except ControlFault String)
  | .error fault => return .error (.backend fault)
  | .ok () => record key allowed >>= settle b key allowed

theorem follows_telling :
    Task.Follows (registerStep b key) result
      ((allowPeer b key [(Network.host address).text] >>=
        writeDown b key (Network.host address).text) >>=
          conclude key running (.host address)) (telling running address) := by
  refine .step rfl (fun _ => rfl) fun p => ?_
  show Task.Follows _ _ (writeDown b key (Network.host address).text
    (b.allowPeer key [(Network.host address).text] p.backend).1 >>= _) _
  simp only [registerStep]
  cases htold : (b.allowPeer key [(Network.host address).text] p.backend).1 with
  | error fault => exact follows_releasing running _
  | ok u => exact follows_recording

/-- What follows in the addition of a client when its record was looked up. -/
def tellApart (b : Backend β) (key allowed : String) (existing : Option RegisteredPeer) :
    Task (Plane β) (Except ControlFault String) :=
  match rival allowed existing with
  | some existing => return .error (.alreadyRegistered key existing.allowedAddress)
  | none => allowPeer b key [allowed] >>= writeDown b key allowed

theorem follows_checking (hkey : Key.check key = .ok ()) {assigned : Network}
    (hassigned : ∃ address, assigned = .host address) :
    Task.Follows (registerStep b key) result
      (addRunning b key assigned.text >>= conclude key running assigned)
      (checking running assigned.address) := by
  obtain ⟨address, rfl⟩ := hassigned
  have hadd : addRunning b key (Network.host address).text =
      lookUp key >>= tellApart b key (Network.host address).text := by
    simp only [addRunning, hkey, Network.ofEntry?_host]
    rfl
  rw [hadd]
  refine .step rfl (fun _ => rfl) fun p => ?_
  show Task.Follows _ _ (tellApart b key (Network.host address).text
    (p.registry.peers.get? key) >>= _) _
  simp only [registerStep, tellApart, Network.address_host]
  cases hexisting : rival (Network.host address).text (p.registry.peers.get? key) with
  | some existing => exact follows_releasing running _
  | none => exact follows_telling

/-- **A registration of a valid key goes through the points.** -/
theorem follows_register (hkey : Key.check key = .ok ()) :
    Task.Follows (registerStep b key) result (register b key) entering := by
  refine .step rfl (fun _ => rfl) fun p => ?_
  simp only [registerStep]
  cases hrunning : p.running with
  | none => exact .done rfl
  | some running =>
      simp only [hkey]
      refine .step rfl (fun _ => rfl) fun q => ?_
      simp only [registerStep]
      cases hrecord : q.registry.peers.get? key with
      | some record =>
          refine .step rfl (fun _ => rfl) fun r => ?_
          show Task.Follows (registerStep b key) result
            (match (b.allowPeer key [record.allowedAddress] r.backend).1 with
            | .error fault => Task.done (.error (.backend fault))
            | .ok () => Task.done
              (.ok ⟨record.allowedAddress, record.registeredAt, running.contact⟩)) _
          simp only [registerStep]
          cases htold : (b.allowPeer key [record.allowedAddress] r.backend).1 with
          | error fault => exact .done rfl
          | ok u => exact .done rfl
      | none =>
          refine .step rfl (fun _ => rfl) fun r => ?_
          refine .step rfl (fun _ => rfl) fun t => ?_
          show Task.Follows (registerStep b key) result
            (match ((allocate r.registry.addresses).run t).1 with
            | .error fault => Task.done (.error (.poolExhausted fault))
            | .ok assigned => addRunning b key assigned.text >>= conclude key running assigned) _
          simp only [registerStep]
          cases hallocated : ((allocate r.registry.addresses).run t).1 with
          | error fault => exact .done rfl
          | ok assigned => exact follows_checking hkey (allocate_eq_host hallocated)

end Plane

end OverlayVpn
