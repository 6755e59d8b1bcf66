import OverlayVpn.Proofs.Client.Journal

set_option autoImplicit false

/-! # The life of a session

How a tunnel stands can be told from a session's journal alone (`Standing.after`), as long as every
deed is in its turn: routes are added to a backend that has started, the newest is removed first,
the backend is stopped once no route is left, and it is given up exactly when it does not stop.
Every deed of a session is in its turn, whatever fails, and between calls the session is at rest or
up and says so (`settled_serve`). What a call is answered tells where it leaves the session
(`connect_settled`, `disconnect_settled`), and a way down is the same on every occasion: one attempt
for each route, and then the backend (`undo_deeds`). -/

namespace OverlayVpn

/-- The deeds of a way down: routes are removed in turn, and then the backend is stopped, or given
up when it does not stop. -/
def Deed.wayDown (routes : List Route) (removed : List Bool) (stopped : Bool) : List Deed :=
  List.zipWith .removeRoute routes removed ++ .stop stopped :: if stopped then [] else [.abort]

/-- How a tunnel stands. -/
inductive Standing where
  | down
  /-- The backend has started, and these routes have been added, the oldest first. -/
  | up (routes : List Route)
  /-- The routes are being removed, and these are left. -/
  | lowering (routes : List Route)
  /-- The backend was to stop and did not. -/
  | stuck
  deriving DecidableEq

namespace Standing

/-- The newest of the routes goes first, be it that its removal fails. -/
def lower (routes : List Route) (route : Route) : Option Standing :=
  if routes.getLast? = some route then some (.lowering routes.dropLast) else none

/-- How the tunnel stands after a deed; `none` where the deed is not in its turn. -/
def next : Standing → Deed → Option Standing
  | .down, .start done => some (if done then .up [] else .down)
  | .up routes, .insertPeer _ => some (.up routes)
  | .up routes, .addRoute route (some .installed) => some (.up (routes ++ [route]))
  | .up routes, .addRoute _ _ => some (.up routes)
  | .up routes, .removeRoute route _ | .lowering routes, .removeRoute route _ => lower routes route
  | .up [], .stop done | .lowering [], .stop done => some (if done then .down else .stuck)
  | .stuck, .abort => some .down
  | _, _ => none

/-- How the tunnel stands after all deeds of a journal. -/
def after (journal : List Deed) : Option Standing := journal.foldlM next .down

theorem after_concat (journal : List Deed) (deed : Deed) :
    after (journal ++ [deed]) = (after journal).bind (·.next deed) := by
  rw [after, List.foldlM_append]
  show (after journal).bind (fun standing => [deed].foldlM next standing) = _
  congr 1
  funext standing
  exact bind_pure (next standing deed)

theorem lower_concat (routes : List Route) (route : Route) :
    lower (routes ++ [route]) route = some (.lowering routes) := by
  rw [lower, if_pos List.getLast?_concat, List.dropLast_concat]

/-- With no route left, the backend is stopped, or given up when it does not stop. -/
theorem after_stop {journal : List Deed}
    (h : after journal = some (.up []) ∨ after journal = some (.lowering [])) (stopped : Bool) :
    after (journal ++ .stop stopped :: if stopped then [] else [.abort]) = some .down := by
  have hstop : after (journal ++ [.stop stopped]) = some (if stopped then .down else .stuck) := by
    rw [after_concat]
    rcases h with h | h <;> rw [h] <;> rfl
  cases stopped with
  | true => exact hstop
  | false =>
      show after (journal ++ ([.stop false] ++ [.abort])) = _
      rw [← List.append_assoc, after_concat, hstop]
      rfl

/-- **A way down brings the tunnel down**, be it that removals fail. -/
theorem after_wayDown {journal : List Deed} {routes : List Route} {removed : List Bool}
    (h : after journal = some (.up routes) ∨ after journal = some (.lowering routes))
    (hlength : removed.length = routes.length) (stopped : Bool) :
    after (journal ++ Deed.wayDown routes.reverse removed stopped) = some .down := by
  -- the newest route stands last and goes first; after it the tunnel is on its way down
  induction routes using List.reverseRecOn generalizing journal removed with
  | nil =>
      obtain rfl := List.length_eq_zero_iff.mp hlength
      exact after_stop h stopped
  | append_singleton routes route ih =>
      rw [List.length_append] at hlength
      obtain ⟨done, removed, rfl⟩ := List.exists_cons_of_length_eq_add_one hlength
      have hlower : after (journal ++ [.removeRoute route done]) = some (.lowering routes) := by
        rw [after_concat]
        rcases h with h | h <;> rw [h] <;> exact lower_concat routes route
      have hrest := ih (Or.inr hlower) (Nat.succ.inj hlength)
      rw [List.append_assoc] at hrest
      rw [List.reverse_append]
      exact hrest

end Standing

namespace Session

variable {ω : Type} {env : Surroundings ω} {s : Session} {x : ω × List Deed}

/-- A session at rest: it has nothing, and its journal ends with the tunnel down. -/
structure AtRest (s : Session) (journal : List Deed) : Prop where
  installed_eq : s.installed = []
  backendStarted_eq : s.backendStarted = false
  connectedSince_eq : s.connectedSince = none
  after_eq : Standing.after journal = some .down

/-- A session with a tunnel: its backend has started, and its routes are those of the journal. -/
structure HasTunnel (s : Session) (journal : List Deed) : Prop where
  backendStarted_eq : s.backendStarted = true
  after_eq : Standing.after journal = some (.up s.installed)

/-- A deed that is in its turn, and that the session remembers. -/
theorem HasTunnel.deed {s' : Session} {journal : List Deed} {deed : Deed} (h : HasTunnel s journal)
    (hstarted : s'.backendStarted = s.backendStarted)
    (hnext : (Standing.up s.installed).next deed = some (.up s'.installed)) :
    HasTunnel s' (journal ++ [deed]) where
  backendStarted_eq := hstarted.trans h.backendStarted_eq
  after_eq := by rw [Standing.after_concat, h.after_eq, Option.bind_some, hnext]

/-- On a way up the session is at rest until the backend has started, and has a tunnel from then
on. It is not connected before the end. -/
theorem carries_standing (env : Surroundings ω) :
    Carries env.journaled (fun s x => AtRest s x.2)
      (fun s x => HasTunnel s x.2 ∧ s.connectedSince = none) where
  resolve {s x} target hrest := by
    show AtRest s (x.2 ++ [])
    rwa [List.append_nil]
  refused {s x} settings fault hrest hstart := by
    have hstart : (env.backend.start settings x.1).1 = .error fault := hstart
    refine { hrest with after_eq := ?_ }
    show Standing.after (x.2 ++ [.start (env.backend.start settings x.1).1.isOk]) = _
    rw [Standing.after_concat, hrest.after_eq, hstart]
    rfl
  started {s x} settings hrest hstart := by
    have hstart : (env.backend.start settings x.1).1 = .ok () := hstart
    refine ⟨⟨rfl, ?_⟩, hrest.connectedSince_eq⟩
    show Standing.after (x.2 ++ [.start (env.backend.start settings x.1).1.isOk]) =
      some (.up s.installed)
    rw [Standing.after_concat, hrest.after_eq, hstart, hrest.installed_eq]
    rfl
  insertPeer peer hup := ⟨hup.1.deed rfl rfl, hup.2⟩
  current {s x} hup := by
    show HasTunnel s (x.2 ++ []) ∧ _
    rwa [List.append_nil]
  installed {s x} route hup hadd := by
    have hadd : (env.routes.add route x.1).1 = .ok .installed := hadd
    refine ⟨hup.1.deed rfl ?_, hup.2⟩
    rw [hadd]
    rfl
  notInstalled {s x} route hup hadd := by
    have hadd : (env.routes.add route x.1).1 ≠ .ok .installed := hadd
    refine ⟨hup.1.deed rfl ?_, hup.2⟩
    match hresult : (env.routes.add route x.1).1 with
    | .ok .installed => exact absurd hresult hadd
    | .ok .alreadyPresent => rfl
    | .error fault => rfl
  sleep _ hup := hup
  probe {s x} address limit hup := by
    show HasTunnel s (x.2 ++ []) ∧ _
    rwa [List.append_nil]

/-- Each route is tried once. -/
theorem removeRoutes_deeds (env : Surroundings ω) (routes : List Route) (x : ω × List Deed) :
    ∃ removed : List Bool, removed.length = routes.length ∧
      (removeRoutes env.journaled routes x).2 =
        x.2 ++ List.zipWith Deed.removeRoute routes removed := by
  induction routes generalizing x with
  | nil => exact ⟨[], rfl, (List.append_nil _).symm⟩
  | cons route routes ih =>
      obtain ⟨removed, hlength, hdeeds⟩ := ih (env.journaled.routes.remove route x).2
      refine ⟨(env.routes.remove route x.1).1.isOk :: removed, congrArg (· + 1) hlength, ?_⟩
      rw [removeRoutes, hdeeds, List.zipWith_cons_cons]
      exact List.append_assoc _ [_] _

/-- **What is undone of a tunnel is its routes, the newest first, and then its backend.** -/
theorem undo_deeds (env : Surroundings ω) (x : ω × List Deed) (hstarted : s.backendStarted = true) :
    ∃ removed stopped, removed.length = s.installed.length ∧
      (undo env.journaled (s, x)).2.2 =
        x.2 ++ Deed.wayDown s.installed.reverse removed stopped := by
  obtain ⟨removed, hlength, hremoved⟩ := removeRoutes_deeds env s.installed.reverse x
  rw [List.length_reverse] at hlength
  simp only [undo, hstarted, if_true]
  rcases stopBackend_cases env (removeRoutes env.journaled s.installed.reverse x) with hstop | hstop
  · refine ⟨removed, true, hlength, ?_⟩
    rw [hstop, hremoved, List.append_assoc]
    rfl
  · refine ⟨removed, false, hlength, ?_⟩
    rw [hstop, hremoved, List.append_assoc, List.append_assoc]
    rfl

/-- **What is undone is at rest.** -/
theorem atRest_undo (hsince : s.connectedSince = none) (h : AtRest s x.2 ∨ HasTunnel s x.2) :
    AtRest (undo env.journaled (s, x)).1 (undo env.journaled (s, x)).2.2 where
  installed_eq := rfl
  backendStarted_eq := rfl
  connectedSince_eq := hsince
  after_eq := by
    rcases h with hrest | hup
    · simp only [undo, hrest.installed_eq, hrest.backendStarted_eq]
      exact hrest.after_eq
    · obtain ⟨removed, stopped, hlength, hdeeds⟩ := undo_deeds env x hup.backendStarted_eq
      rw [hdeeds]
      exact Standing.after_wayDown (Or.inl hup.after_eq) hlength stopped

/-- How a session is found between calls. -/
def Settled (s : Session) (journal : List Deed) : Prop :=
  (s.state = .disconnected ∧ AtRest s journal) ∨
    (s.state = .connected ∧ HasTunnel s journal ∧ s.connectedSince.isSome = true)

theorem isUp_eq_true_iff : s.isUp = true ↔ s.state = .connected := by
  rw [isUp, beq_iff_eq]

/-- **A session at rest that is to connect has a tunnel afterwards, or is at rest again**, as it is
answered. -/
theorem connect_settled (env : Surroundings ω) (hstate : s.state = .disconnected)
    (hrest : AtRest s x.2) :
    let r := connect env.journaled (s, x)
    (r.1 = .ok () ∧ r.2.1.state = .connected ∧ HasTunnel r.2.1 r.2.2.2 ∧
        r.2.1.connectedSince.isSome = true) ∨
      (∃ fault, r.1 = .error fault) ∧ r.2.1.state = .disconnected ∧ AtRest r.2.1 r.2.2.2 := by
  have hdown : s.isUp = false := by rw [isUp, hstate]; rfl
  have hrest : AtRest { s with state := .connecting } x.2 := { hrest with }
  -- the way up comes to its end, or it stops at rest or with a tunnel and what there is is undone
  rcases connect_of_ends hdown ((carries_standing env).raise hrest) with
    ⟨s', x', ⟨hup, -⟩, hconnect⟩ | ⟨fault, s', x', hleft, hconnect⟩
  · rw [hconnect]
    refine Or.inl ⟨rfl, rfl, ⟨hup.backendStarted_eq, ?_⟩, rfl⟩
    show Standing.after (x'.2 ++ []) = _
    rw [List.append_nil]
    exact hup.after_eq
  · rw [hconnect]
    have hsince : s'.connectedSince = none := by
      rcases hleft with hrest | ⟨-, hsince⟩
      · exact hrest.connectedSince_eq
      · exact hsince
    exact Or.inr ⟨⟨fault, rfl⟩, rfl, { atRest_undo hsince (hleft.imp id And.left) with }⟩

/-- **A session with a tunnel that is to disconnect is at rest afterwards**, and has gone down. -/
theorem disconnect_settled (env : Surroundings ω) (hstate : s.state = .connected)
    (hup : HasTunnel s x.2) :
    let r := disconnect env.journaled (s, x)
    r.1 = .ok () ∧ r.2.1.state = .disconnected ∧ AtRest r.2.1 r.2.2.2 ∧
      ∃ removed stopped, removed.length = s.installed.length ∧
        r.2.2.2 = x.2 ++ Deed.wayDown s.installed.reverse removed stopped := by
  rw [disconnect_of_isUp (isUp_eq_true_iff.mpr hstate)]
  have hup : HasTunnel { s with state := .disconnecting, connectedSince := none } x.2 :=
    { hup with }
  exact ⟨rfl, rfl, { atRest_undo rfl (Or.inr hup) with }, undo_deeds env x hup.backendStarted_eq⟩

/-- **A call finds a session settled and leaves it settled.** -/
theorem settled_perform (h : Settled s x.2) (call : Call) :
    Settled (perform env.journaled (s, x) call).2.1 (perform env.journaled (s, x) call).2.2.2 := by
  rcases h with ⟨hstate, hrest⟩ | ⟨hstate, hup, hsince⟩
  · cases call with
    | connect =>
        rcases connect_settled env hstate hrest with ⟨-, hup⟩ | ⟨-, hdown⟩
        · exact Or.inr hup
        · exact Or.inl hdown
    | disconnect =>
        rw [perform, disconnect_of_not_isUp (by rw [isUp, hstate]; rfl)]
        exact Or.inl ⟨hstate, hrest⟩
  · cases call with
    | connect =>
        rw [perform, connect_of_isUp (isUp_eq_true_iff.mpr hstate)]
        exact Or.inr ⟨hstate, hup, hsince⟩
    | disconnect =>
        obtain ⟨-, hdown, hrest, -⟩ := disconnect_settled env hstate hup
        exact Or.inl ⟨hdown, hrest⟩

theorem settled_serve (profile : Profile) (settings : SessionPlan) (w : ω) (calls : List Call) :
    let y := serve env.journaled ({ profile, settings }, w, []) calls
    Settled y.1 y.2.2 :=
  serve_induct (P := fun s (x : ω × List Deed) => Settled s x.2)
    (fun _ _ call h => settled_perform h call) (Or.inl ⟨rfl, rfl, rfl, rfl, rfl⟩) calls

/-- The reply to a call that connects tells where the session stands. -/
theorem connect_answered (h : Settled s x.2) :
    ((connect env (s, x.1)).1 = .ok () → (connect env (s, x.1)).2.1.state = .connected) ∧
      (s.state = .disconnected → (connect env (s, x.1)).1 ≠ .ok () →
        (connect env (s, x.1)).2.1.state = .disconnected) := by
  rcases h with ⟨hstate, hrest⟩ | ⟨hstate, -, -⟩
  · rw [← connect_journaled]
    rcases connect_settled env hstate hrest with
      ⟨hok, hup, -⟩ | ⟨⟨fault, herror⟩, hdown, -⟩
    · exact ⟨fun _ => hup, fun _ hfailed => absurd hok hfailed⟩
    · exact ⟨fun hok => (nomatch herror.symm.trans hok), fun _ _ => hdown⟩
  · rw [connect_of_isUp (isUp_eq_true_iff.mpr hstate)]
    exact ⟨nofun, fun hdown => nomatch hstate.symm.trans hdown⟩

/-- The reply to a call that disconnects tells whether the session has gone down. -/
theorem disconnect_answered (h : Settled s x.2) :
    ((disconnect env (s, x.1)).1 = .ok () ↔ s.state = .connected) ∧
      ((disconnect env (s, x.1)).1 = .ok () →
        (disconnect env (s, x.1)).2.1.state = .disconnected ∧
          ∃ removed stopped, removed.length = s.installed.length ∧
            (disconnect env.journaled (s, x)).2.2.2 =
              x.2 ++ Deed.wayDown s.installed.reverse removed stopped) := by
  rcases h with ⟨hstate, -⟩ | ⟨hstate, hup, -⟩
  · rw [disconnect_of_not_isUp (by rw [isUp, hstate]; rfl)]
    exact ⟨⟨nofun, fun hup => nomatch hstate.symm.trans hup⟩, nofun⟩
  · obtain ⟨hok, hdown, -, hdeeds⟩ := disconnect_settled env hstate hup
    rw [← disconnect_journaled]
    exact ⟨⟨fun _ => hstate, fun _ => hok⟩, fun _ => ⟨hdown, hdeeds⟩⟩

/-- **A session's life**, whatever fails of what it does to its surroundings. Between calls it is
disconnected, with no route, no backend and no time of connection, or it is connected, with a
backend and a time of connection. Its journal, which it does not notice, has every deed in its turn:
each backend that has started is stopped exactly once, after one attempt to remove each of the
routes, the newest first, and it is given up exactly when it does not stop; when the session is
disconnected again all this has been done. Connecting twice does nothing, nor does disconnecting
what is not connected.

The reply to a call tells where it leaves the session: to connect leaves it connected if that
succeeds, and disconnected as before if it fails. To disconnect succeeds whenever the session is
connected, and leaves it disconnected, with the routes removed and the backend stopped in this very
call. -/
theorem session_lifecycle (env : Surroundings ω) (profile : Profile) (settings : SessionPlan) (w : ω)
    (calls : List Call) :
    let x := serve env ({ profile, settings }, w) calls
    let y := serve env.journaled ({ profile, settings }, w, []) calls
    let journal := y.2.2
    x = (y.1, y.2.1) ∧
      ((x.1.state = .disconnected ∧ x.1.installed = [] ∧ x.1.backendStarted = false ∧
          x.1.connectedSince = none ∧ Standing.after journal = some .down) ∨
        (x.1.state = .connected ∧ x.1.backendStarted = true ∧ x.1.connectedSince.isSome = true ∧
          Standing.after journal = some (.up x.1.installed))) ∧
      (x.1.state = .connected → connect env x = (.error .alreadyConnected, x)) ∧
      (x.1.state = .disconnected → disconnect env x = (.error .notConnected, x)) ∧
      ((connect env x).1 = .ok () → (connect env x).2.1.state = .connected) ∧
      (x.1.state = .disconnected → (connect env x).1 ≠ .ok () →
        (connect env x).2.1.state = .disconnected) ∧
      ((disconnect env x).1 = .ok () ↔ x.1.state = .connected) ∧
      ((disconnect env x).1 = .ok () → (disconnect env x).2.1.state = .disconnected ∧
        ∃ removed stopped, removed.length = x.1.installed.length ∧
          (disconnect env.journaled y).2.2.2 =
            journal ++ Deed.wayDown x.1.installed.reverse removed stopped) := by
  intro x y journal
  have hsame : x = (y.1, y.2.1) := serve_journaled env { profile, settings } (w, []) calls
  have hsettled : Settled y.1 journal := settled_serve profile settings w calls
  rw [hsame]
  refine ⟨rfl, ?_, fun hstate => ?_, fun hstate => ?_, (connect_answered hsettled).1,
    (connect_answered hsettled).2, (disconnect_answered hsettled).1,
    (disconnect_answered hsettled).2⟩
  · rcases hsettled with ⟨hstate, hrest⟩ | ⟨hstate, hup, hsince⟩
    · exact Or.inl ⟨hstate, hrest.installed_eq, hrest.backendStarted_eq, hrest.connectedSince_eq,
        hrest.after_eq⟩
    · exact Or.inr ⟨hstate, hup.backendStarted_eq, hsince, hup.after_eq⟩
  · exact connect_of_isUp (isUp_eq_true_iff.mpr hstate) y.2.1
  · exact disconnect_of_not_isUp (by rw [isUp, hstate]; rfl) y.2.1

/-! ## A run with failures -/

/-- The next of the outcomes that are foretold; when they have run out, all goes well. -/
def foretold {ε α : Type} (fault : ε) (value : α) : List Bool → Except ε α × List Bool
  | [] => (.ok value, [])
  | done :: outcomes => (if done then .ok value else .error fault, outcomes)

/-- Surroundings in which everything succeeds or fails as foretold. -/
def faltering (now : Timestamp) : Surroundings (List Bool) where
  backend :=
    { start := fun _ => foretold .deviceMissing ()
      stop := fun _ outcomes =>
        let (r, outcomes) := foretold .deviceMissing () outcomes
        (some r, outcomes)
      insertPeer := fun _ => foretold .deviceMissing ()
      erasePeer := fun _ => foretold .deviceMissing ()
      knownPeers := fun _ => []
      isRunning := fun _ => true
      transferred := fun outcomes =>
        let (r, outcomes) := foretold .deviceMissing {} outcomes
        (some r, outcomes)
      abort := id }
  routes :=
    { current := foretold (.defaultRoute .missing) { device := "eth0" }
      add := fun _ => foretold (.defaultRoute .missing) .installed
      remove := fun _ => foretold (.defaultRoute .missing) () }
  probe _ _ outcomes :=
    let (r, outcomes) := foretold () () outcomes
    (r.isOk, outcomes)
  resolve target outcomes :=
    let (r, outcomes) := foretold () () outcomes
    (if r.isOk then (Socket.read? target).map ([·]) else none, outcomes)
  sleep _ outcomes := outcomes
  now outcomes := (now, outcomes)

/-- The last of three routes cannot be added; of the two before it one cannot be removed, and the
backend, which does not stop, is given up. The second time all goes well until the session
disconnects: again a route stays and the backend does not stop. -/
theorem session_lifecycle_of_faltering :
    let now : Timestamp := ⟨⟨2024, 5, 1⟩, ⟨12, 0, 0, 0⟩, by decide, by decide⟩
    let profile : Profile :=
      { clientPrivateKey := "", clientPublicKey := "", serverPublicKey := ""
        serverEndpoint := "203.0.113.7:51820", assignedAddress := "10.0.0.2/32"
        serverTunnelAddress := .ofOctets 10 0 0 1, registeredAt := now }
    let settings : SessionPlan :=
      { interfaceName := "wg0", keepalive := 25, routeMode := .full
        tunnelNetwork := { address := .ofOctets 10 0 0 0, length := 24 }
        probeTimeout := 2, tunnelProbeTimeout := 3, handshakeGrace := 1 }
    let lower : Route := { destination := lowerHalf, device := "wg0" }
    let upper : Route := { destination := upperHalf, device := "wg0" }
    let server : Route := { destination := .host (.ofOctets 203 0 113 7), device := "eth0" }
    let first := [true, true, true, true, true, true, false, false, true, false]
    let second := [true, true, true, true, true, true, true, true]
    let outcomes := first ++ second ++ [true, true, false, false]
    let env := faltering now
    let failed := serve env.journaled ({ profile, settings }, outcomes, []) [.connect]
    let up := serve env ({ profile, settings }, outcomes) [.connect, .connect]
    failed.1.state = .disconnected ∧
      failed.2.2 = [.start true, .insertPeer true, .addRoute server (some .installed),
        .addRoute lower (some .installed), .addRoute upper none, .removeRoute lower false,
        .removeRoute server true, .stop false, .abort] ∧
      Standing.after failed.2.2 = some .down ∧
      up.1.state = .connected ∧ up.1.installed = [server, lower, upper] ∧
      (connect env up).1 = .error .alreadyConnected ∧
      (disconnect env up).1 = .ok () ∧ (disconnect env up).2.1.state = .disconnected := by
  intro now profile settings lower upper server first second outcomes env failed up
  obtain ⟨hstate, hdeeds⟩ : failed.1.state = .disconnected ∧
      failed.2.2 = [.start true, .insertPeer true, .addRoute server (some .installed),
        .addRoute lower (some .installed), .addRoute upper none, .removeRoute lower false,
        .removeRoute server true, .stop false, .abort] := by decide +kernel
  obtain ⟨hup, hinstalled⟩ : up.1.state = .connected ∧ up.1.installed = [server, lower, upper] := by
    decide +kernel
  -- that the tunnel is down and that the session can go down again follows without a computation
  obtain ⟨hsame, ⟨-, -, -, -, hdown⟩ | ⟨hconnected, -⟩, -⟩ :=
    session_lifecycle env profile settings outcomes [.connect]
  · obtain ⟨-, -, htwice, -, -, -, hdisconnect, hleft⟩ :=
      session_lifecycle env profile settings outcomes [.connect, .connect]
    have hok : (disconnect env up).1 = .ok () := hdisconnect.mpr hup
    exact ⟨hstate, hdeeds, hdown, hup, hinstalled, congrArg Prod.fst (htwice hup), hok,
      (hleft hok).1⟩
  · rw [hsame] at hconnected
    cases hstate.symm.trans hconnected

end Session

end OverlayVpn
