import OverlayVpn.Proofs.Control.Registering

set_option autoImplicit false

/-! # Where a removal stands

A removal takes the peer from the backend, looks its record up, strikes it out and only then takes
the record's address back. `ErasePoint` names the points between these steps and `eraseStep` says
what each step does; a removal goes through these points (`follows_eraseClient`). -/

namespace OverlayVpn

namespace Plane

variable {β : Type}

/-- What the next step of a removal is. -/
inductive ErasePoint where
  | entering
  | dropping
  | lookingUp
  /-- The record was looked up. -/
  | striking (found : Option RegisteredPeer)
  /-- The record is struck out, and its address is still to be taken back. -/
  | releasing (address : Ipv4)
  | finished (result : Except ControlFault Unit)

namespace ErasePoint

/-- How a call ended. -/
def result : ErasePoint → Option (Except ControlFault Unit)
  | finished result => some result
  | _ => none

end ErasePoint

open ErasePoint

/-- The address that a record names. -/
def addressOf (found : Option RegisteredPeer) : Option Ipv4 :=
  found.bind fun record => Ipv4.ofEntry? record.allowedAddress

/-- Where a removal goes on when the record is struck out. -/
def afterStrike (found : Option RegisteredPeer) : ErasePoint :=
  match addressOf found with
  | some address => releasing address
  | none => finished (.ok ())

/-- What the next step of a removal does. -/
def eraseStep (b : Backend β) (key : String) : ErasePoint → Plane β → ErasePoint × Plane β
  | entering, p =>
    (match p.running with
      | none => finished (.error .notRunning)
      | some _ => dropping, p)
  | dropping, p =>
    (match (b.erasePeer key p.backend).1 with
      | .error fault => finished (.error (.backend fault))
      | .ok () => lookingUp, { p with backend := (b.erasePeer key p.backend).2 })
  | lookingUp, p => (striking (p.registry.peers.get? key), p)
  | striking found, p => (afterStrike found, p.struck key)
  | releasing address, p =>
    (finished (.ok ()), { p with allocator := (p.allocator.release address).2 })
  | finished result, p => (finished result, p)

/-! ## A removal goes through the points -/

variable {b : Backend β} {key : String}

/-- What follows in a removal when the record is struck out. -/
def takeBack (found : Option RegisteredPeer) : Task (Plane β) (Except ControlFault Unit) := do
  match addressOf found with
  | some address => release address
  | none => pure ()
  return .ok ()

theorem follows_takeBack (found : Option RegisteredPeer) :
    Task.Follows (eraseStep b key) result (takeBack found) (afterStrike found) := by
  unfold takeBack afterStrike
  cases addressOf found with
  | some address => exact .step rfl (fun _ => rfl) fun _ => .done rfl
  | none => exact .done rfl

theorem follows_striking (found : Option RegisteredPeer) :
    Task.Follows (eraseStep b key) result (strike key >>= fun _ => takeBack found)
      (striking found) :=
  .step rfl (fun _ => rfl) fun _ => follows_takeBack found

/-- **A removal goes through the points.** -/
theorem follows_eraseClient :
    Task.Follows (eraseStep b key) result (eraseClient b key) entering := by
  refine .step rfl (fun _ => rfl) fun p => ?_
  simp only [eraseStep]
  cases hrunning : p.running with
  | none => exact .done rfl
  | some running =>
      refine .step rfl (fun _ => rfl) fun q => ?_
      show Task.Follows (eraseStep b key) result
        (match (b.erasePeer key q.backend).1 with
        | .error fault => Task.done (.error (.backend fault))
        | .ok () => lookUp key >>= fun found => strike key >>= fun _ => takeBack found) _
      simp only [eraseStep]
      cases hdropped : (b.erasePeer key q.backend).1 with
      | error fault => exact .done rfl
      | ok u => exact .step rfl (fun _ => rfl) fun r => follows_striking _

end Plane

end OverlayVpn
