import Mathlib.Data.List.Induction
import Mathlib.Tactic.Common
import OverlayVpn.Client.Session

set_option autoImplicit false

/-! # The way up and the way down

A session's programs act on its world one operation at a time, and may end in a fault after any of
them. Two properties that the operations carry along, one until the backend has started and one
from then on (`Carries`), therefore hold wherever a way up ends (`Carries.raise`). A way down
removes the newest route first, so that a property of the routes that are left is carried along
one route at a time (`removeRoutes_reverse`). Calls are made one after another (`serve`). -/

namespace OverlayVpn

namespace Session

variable {ω α β : Type}

/-! ## Ends of programs -/

/-- What a program ends in: `good` holds of a result and of what it leaves, `bad` of what a fault
leaves. -/
def Ends (m : SessionM ω α) (s : Session) (w : ω) (good : α → Session → ω → Prop)
    (bad : Session → ω → Prop) : Prop :=
  match m.run (s, w) with
  | (.ok a, s, w) => good a s w
  | (.error _, s, w) => bad s w

section Ends

variable {good : α → Session → ω → Prop} {bad : Session → ω → Prop} {s : Session} {w : ω}

theorem ends_pure {a : α} (h : good a s w) : Ends (pure a) s w good bad := h

theorem ends_throw {fault : SessionFault} (h : bad s w) : Ends (throw fault) s w good bad := h

theorem run_bind (m : SessionM ω β) (k : β → SessionM ω α) (x : Session × ω) :
    (m >>= k).run x =
      match m.run x with
      | (.ok b, x) => (k b).run x
      | (.error e, x) => (.error e, x) := by
  show StateT.bind m.run (ExceptT.bindCont k) x = _
  simp only [StateT.bind, bind]
  cases hrun : m.run x with
  | mk result x' => cases result <;> rfl

/-- One program after another. -/
theorem Ends.bind {m : SessionM ω β} {k : β → SessionM ω α} (mid : β → Session → ω → Prop)
    (h : Ends m s w mid bad) (hk : ∀ b s w, mid b s w → Ends (k b) s w good bad) :
    Ends (m >>= k) s w good bad := by
  unfold Ends at h ⊢
  rw [run_bind]
  cases hrun : m.run (s, w) with
  | mk result x =>
      rw [hrun] at h
      cases result with
      | ok b => exact hk b x.1 x.2 h
      | error e => exact h

theorem Ends.mono {m : SessionM ω α} {good' : α → Session → ω → Prop} {bad' : Session → ω → Prop}
    (h : Ends m s w good bad) (hgood : ∀ a s w, good a s w → good' a s w)
    (hbad : ∀ s w, bad s w → bad' s w) : Ends m s w good' bad' := by
  unfold Ends at h ⊢
  split at h
  · exact hgood _ _ _ h
  · exact hbad _ _ h

theorem ends_get {k : Session × ω → SessionM ω α} (h : Ends (k (s, w)) s w good bad) :
    Ends (get >>= k) s w good bad := h

theorem ends_act {f : ω → α × ω} (h : good (f w).1 s (f w).2) : Ends (act f) s w good bad := h

theorem ends_attempt {ε : Type} {fault : ε → SessionFault} {f : ω → Except ε α × ω}
    (hok : ∀ a, (f w).1 = .ok a → good a s (f w).2)
    (herror : ∀ e, (f w).1 = .error e → bad s (f w).2) : Ends (attempt fault f) s w good bad := by
  unfold attempt
  refine Ends.bind (fun r s' w' => r = (f w).1 ∧ s' = s ∧ w' = (f w).2) ⟨rfl, rfl, rfl⟩ ?_
  rintro r s' w' ⟨hr, rfl, rfl⟩
  cases r with
  | ok a => exact ends_pure (hok a hr.symm)
  | error e => exact ends_throw (herror e hr.symm)

/-- Looking into the profile changes nothing. -/
theorem ends_fromProfile {part : Profile → Except Profile.Invalid α} {P : Session → ω → Prop}
    (h : P s w) : Ends (fromProfile part) s w (fun _ => P) P := by
  unfold fromProfile
  apply ends_get
  split
  · exact ends_pure h
  · exact ends_throw h

end Ends

/-! ## The way up -/

/-- Two properties of a session and its world that the operations of a way up carry along: `down`
until the backend has started, `up` from then on. -/
structure Carries (env : Surroundings ω) (down up : Session → ω → Prop) : Prop where
  resolve : ∀ {s w} target, down s w → down s (env.resolve target w).2
  refused : ∀ {s w} settings fault, down s w → (env.backend.start settings w).1 = .error fault →
    down s (env.backend.start settings w).2
  started : ∀ {s w} settings, down s w → (env.backend.start settings w).1 = .ok () →
    up { s with backendStarted := true } (env.backend.start settings w).2
  insertPeer : ∀ {s w} peer, up s w → up s (env.backend.insertPeer peer w).2
  current : ∀ {s w}, up s w → up s (env.routes.current w).2
  installed : ∀ {s w} route, up s w → (env.routes.add route w).1 = .ok .installed →
    up { s with installed := s.installed ++ [route] } (env.routes.add route w).2
  notInstalled : ∀ {s w} route, up s w → (env.routes.add route w).1 ≠ .ok .installed →
    up s (env.routes.add route w).2
  sleep : ∀ {s w} seconds, up s w → up s (env.sleep seconds w)
  probe : ∀ {s w} address limit, up s w → up s (env.probe address limit w).2

namespace Carries

variable {env : Surroundings ω} {down up : Session → ω → Prop} {s : Session} {w : ω}

theorem findServer (h : Carries env down up) (hdown : down s w) :
    Ends (findServer env) s w (fun _ => down) down := by
  unfold Session.findServer
  refine (ends_fromProfile hdown).bind _ fun target s w hdown => ?_
  refine Ends.bind (fun _ => down) (ends_act (h.resolve target hdown))
    fun candidates s w hdown => ?_
  split
  · exact ends_pure hdown
  · exact ends_throw hdown

theorem serverRoute (h : Carries env down up) (endpoint : Socket) (hup : up s w) :
    Ends (serverRoute env endpoint) s w (fun _ => up) up := by
  unfold Session.serverRoute
  apply ends_get
  split
  · split
    · exact ends_pure hup
    · refine Ends.bind (fun _ => up)
        (ends_attempt (fun _ _ => h.current hup) fun _ _ => h.current hup) fun _ s w hup => ?_
      exact ends_pure hup
  · exact ends_pure hup

/-- Routes are added one by one, and each is remembered before the next is tried. -/
theorem addRoutes (h : Carries env down up) (routes : List Route) (hup : up s w) :
    Ends (addRoutes env routes) s w (fun _ => up) up := by
  induction routes generalizing s w with
  | nil => exact ends_pure hup
  | cons route routes ih =>
      unfold Session.addRoutes
      -- the world after the attempt, with the session still as it was
      refine Ends.bind (fun addition s' w' => s' = s ∧ w' = (env.routes.add route w).2 ∧
        (env.routes.add route w).1 = .ok addition)
        (ends_attempt (fun addition hok => ⟨rfl, rfl, hok⟩) fun e herror => ?_) ?_
      · exact h.notInstalled route hup (by simp [herror])
      · rintro addition _ _ ⟨rfl, rfl, hok⟩
        cases addition with
        | installed => exact ih (h.installed route hup hok)
        | alreadyPresent =>
            exact ih (h.notInstalled route hup (by simp [hok]))

theorem verify (h : Carries env down up) (endpoint : Socket) (hup : up s w) :
    Ends (verify env endpoint) s w (fun _ => up) up := by
  unfold Session.verify
  apply ends_get
  refine Ends.bind (fun _ => up) (ends_act (h.probe _ _ hup)) fun answered s w hup => ?_
  -- what the second probe finds decides on the fault alone
  have hthrow : ∀ (reachable : Bool) (s : Session) (w : ω), up s w →
      Ends (if reachable = true then throw (.handshakeIncomplete endpoint.text)
        else throw (.serverUnreachable endpoint.text) : SessionM ω Unit) s w (fun _ => up) up := by
    intro reachable s w hup
    split <;> exact ends_throw hup
  split
  · exact ends_pure hup
  · split
    · exact hthrow true s w hup
    · exact Ends.bind (fun _ => up) (ends_act (h.probe _ _ hup)) hthrow

/-- **A way up ends up, or in a fault before or after the backend has started.** -/
theorem raise (h : Carries env down up) (hdown : down s w) :
    Ends (raise env) s w (fun _ => up) fun s w => down s w ∨ up s w := by
  unfold Session.raise
  refine Ends.bind _ ((ends_fromProfile hdown).mono (fun _ _ _ => id) fun _ _ => Or.inl)
    fun address s w hdown => ?_
  refine Ends.bind _ ((h.findServer hdown).mono (fun _ _ _ => id) fun _ _ => Or.inl)
    fun endpoint s w hdown => ?_
  apply ends_get
  -- from the start of the backend on, `up` holds as soon as the session knows of it
  refine Ends.bind (fun _ s w => up { s with backendStarted := true } w)
    (ends_attempt (fun _ hok => h.started _ hdown hok)
      fun e herror => Or.inl (h.refused _ e hdown herror)) fun _ s w hup => ?_
  refine Ends.mono (?_ : Ends _ _ _ (fun _ => up) up) (fun _ _ _ => id) fun _ _ => Or.inr
  refine Ends.bind (fun _ => up) hup fun _ s w hup => ?_
  refine Ends.bind (fun _ => up)
    (ends_attempt (fun _ _ => h.insertPeer _ hup) fun _ _ => h.insertPeer _ hup) fun _ s w hup => ?_
  refine (h.serverRoute endpoint hup).bind _ fun before s w hup => ?_
  refine (h.addRoutes _ hup).bind _ fun _ s w hup => ?_
  exact Ends.bind (fun _ => up) (h.sleep _ hup) fun _ s w hup => h.verify endpoint hup

end Carries

/-! ## The way down -/

/-- A property of the routes that are left and of the world is carried along to the last route. -/
theorem removeRoutes_reverse {env : Surroundings ω} {P : List Route → ω → Prop}
    (h : ∀ routes route w, P (routes ++ [route]) w → P routes (env.routes.remove route w).2)
    {routes : List Route} {w : ω} (hall : P routes w) : P [] (removeRoutes env routes.reverse w) := by
  induction routes using List.reverseRecOn generalizing w with
  | nil => exact hall
  | append_singleton routes route ih =>
      rw [List.reverse_append]
      exact ih (h routes route w hall)

/-! ## Calls -/

/-- What is asked of a session. -/
inductive Call where
  | connect
  | disconnect
  deriving DecidableEq, Repr

/-- Does what is asked. -/
def perform (env : Surroundings ω) (x : Session × ω) : Call → Except SessionFault Unit × Session × ω
  | .connect => connect env x
  | .disconnect => disconnect env x

/-- Does what is asked in turn. -/
def serve (env : Surroundings ω) : Session × ω → List Call → Session × ω
  | x, [] => x
  | x, call :: calls => serve env (perform env x call).2 calls

/-- What every call keeps holds after all of them. -/
theorem serve_induct {env : Surroundings ω} {P : Session → ω → Prop}
    (h : ∀ s w call, P s w → P (perform env (s, w) call).2.1 (perform env (s, w) call).2.2)
    {s : Session} {w : ω} (hstart : P s w) (calls : List Call) :
    P (serve env (s, w) calls).1 (serve env (s, w) calls).2 := by
  induction calls generalizing s w with
  | nil => exact hstart
  | cons call calls ih => exact ih (h s w call hstart)

theorem connect_of_isUp {env : Surroundings ω} {s : Session} (h : s.isUp = true) (w : ω) :
    connect env (s, w) = (.error .alreadyConnected, s, w) := by
  simp only [connect, h, if_true]

theorem disconnect_of_not_isUp {env : Surroundings ω} {s : Session} (h : s.isUp = false) (w : ω) :
    disconnect env (s, w) = (.error .notConnected, s, w) := by
  simp [disconnect, h]

theorem disconnect_of_isUp {env : Surroundings ω} {s : Session} (h : s.isUp = true) (w : ω) :
    disconnect env (s, w) =
      (.ok (),
        { (undo env ({ s with state := .disconnecting }, w)).1 with
          state := .disconnected, connectedSince := none },
        (undo env ({ s with state := .disconnecting }, w)).2) := by
  simp only [disconnect, h, if_true]

/-- **What becomes of a connection that is asked for.** It stands, or all that was done is undone. -/
theorem connect_of_ends {env : Surroundings ω} {s : Session} {w : ω} {good bad : Session → ω → Prop}
    (hdown : s.isUp = false)
    (h : Ends (raise env) { s with state := .connecting } w (fun _ => good) bad) :
    (∃ s' w', good s' w' ∧ connect env (s, w) =
      (.ok (), { s' with state := .connected, connectedSince := some (env.now w').1 },
        (env.now w').2)) ∨
    ∃ fault s' w', bad s' w' ∧ connect env (s, w) =
      (.error fault, { (undo env (s', w')).1 with state := .disconnected },
        (undo env (s', w')).2) := by
  unfold Ends at h
  simp only [connect, hdown, Bool.false_eq_true, if_false]
  split at h
  · next s' w' hrun =>
      rw [hrun]
      exact Or.inl ⟨s', w', h, rfl⟩
  · next fault s' w' hrun =>
      rw [hrun]
      exact Or.inr ⟨fault, s', w', h, rfl⟩

end Session

end OverlayVpn
