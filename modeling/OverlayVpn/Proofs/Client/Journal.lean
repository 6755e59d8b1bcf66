import OverlayVpn.Proofs.Client.Session

set_option autoImplicit false

/-! # What a session does, in a journal

A session can be made to keep a journal of what it does to its backend and to its routes
(`Surroundings.journaled`), and does not notice: its programs end as they do without
(`Session.unnoticed_raise`), and so do its calls (`Session.serve_journaled`). -/

namespace OverlayVpn

/-! ## Deeds -/

/-- What a session does, and whether that succeeds. -/
inductive Deed where
  | start (done : Bool)
  | insertPeer (done : Bool)
  | stop (done : Bool)
  | abort
  /-- Adding a route; no outcome means that it failed. -/
  | addRoute (route : Route) (outcome : Option RouteAddition)
  | removeRoute (route : Route) (done : Bool)
  deriving DecidableEq

namespace Surroundings

variable {ω α : Type}

/-- An action of the world with the deeds that it amounts to. -/
def noting (note : α → List Deed) (f : ω → α × ω) (x : ω × List Deed) : α × ω × List Deed :=
  ((f x.1).1, (f x.1).2, x.2 ++ note (f x.1).1)

/-- An action of the world that is not worth a note. -/
def unnoted (f : ω → α × ω) : ω × List Deed → α × ω × List Deed := noting (fun _ => []) f

/-- The same surroundings with a journal of what is done to the backend and to the routes. -/
def journaled (env : Surroundings ω) : Surroundings (ω × List Deed) where
  backend :=
    { start := fun settings => noting (fun r => [.start r.isOk]) (env.backend.start settings)
      stop := fun limit => noting (fun r => [.stop (r.any (·.isOk))]) (env.backend.stop limit)
      insertPeer := fun peer => noting (fun r => [.insertPeer r.isOk]) (env.backend.insertPeer peer)
      erasePeer := fun key => unnoted (env.backend.erasePeer key)
      knownPeers := fun x => env.backend.knownPeers x.1
      isRunning := fun x => env.backend.isRunning x.1
      transferred := unnoted env.backend.transferred
      abort := fun x => (env.backend.abort x.1, x.2 ++ [.abort]) }
  routes :=
    { current := unnoted env.routes.current
      add := fun route => noting (fun r => [.addRoute route r.toOption]) (env.routes.add route)
      remove := fun route =>
        noting (fun r => [.removeRoute route r.isOk]) (env.routes.remove route) }
  probe := fun address limit => unnoted (env.probe address limit)
  resolve := fun target => unnoted (env.resolve target)
  sleep := fun seconds x => (env.sleep seconds x.1, x.2)
  now := unnoted env.now

end Surroundings

/-! ## The journal is not noticed -/

namespace Session

variable {ω α β : Type}

/-- A program with a journal does what the one without does. -/
def Unnoticed (m' : SessionM (ω × List Deed) α) (m : SessionM ω α) : Prop :=
  ∀ s w journal, ∃ journal', m'.run (s, w, journal) =
    ((m.run (s, w)).1, (m.run (s, w)).2.1, (m.run (s, w)).2.2, journal')

theorem unnoticed_pure (a : α) : Unnoticed (pure a : SessionM (ω × List Deed) α) (pure a) :=
  fun _ _ journal => ⟨journal, rfl⟩

theorem unnoticed_throw (fault : SessionFault) :
    Unnoticed (throw fault : SessionM (ω × List Deed) α) (throw fault) :=
  fun _ _ journal => ⟨journal, rfl⟩

theorem Unnoticed.bind {m' : SessionM (ω × List Deed) β} {m : SessionM ω β}
    {k' : β → SessionM (ω × List Deed) α} {k : β → SessionM ω α} (h : Unnoticed m' m)
    (hk : ∀ b, Unnoticed (k' b) (k b)) : Unnoticed (m' >>= k') (m >>= k) := by
  intro s w journal
  obtain ⟨journal₁, hrun⟩ := h s w journal
  rw [run_bind, run_bind, hrun]
  cases hresult : m.run (s, w) with
  | mk result x =>
      cases result with
      | ok b => exact hk b x.1 x.2 journal₁
      | error e => exact ⟨journal₁, rfl⟩

theorem unnoticed_get {k' : Session × ω × List Deed → SessionM (ω × List Deed) α}
    {k : Session × ω → SessionM ω α}
    (h : ∀ s w journal, Unnoticed (k' (s, w, journal)) (k (s, w))) :
    Unnoticed (get >>= k') (get >>= k) := fun s w journal => h s w journal s w journal

/-- An operation with a journal does what the one without does. -/
def Watched (f' : ω × List Deed → α × ω × List Deed) (f : ω → α × ω) : Prop :=
  ∀ w journal, ∃ journal', f' (w, journal) = ((f w).1, (f w).2, journal')

theorem unnoticed_act {f' : ω × List Deed → α × ω × List Deed} {f : ω → α × ω} (h : Watched f' f) :
    Unnoticed (act f') (act f) := by
  intro s w journal
  obtain ⟨journal', hf⟩ := h w journal
  refine ⟨journal', ?_⟩
  show (Except.ok (f' (w, journal)).1, s, (f' (w, journal)).2) = _
  rw [hf]
  rfl

theorem unnoticed_attempt {ε : Type} {fault : ε → SessionFault}
    {f' : ω × List Deed → Except ε α × ω × List Deed} {f : ω → Except ε α × ω} (h : Watched f' f) :
    Unnoticed (attempt fault f') (attempt fault f) := by
  unfold attempt
  refine (unnoticed_act h).bind fun r => ?_
  cases r with
  | ok a => exact unnoticed_pure a
  | error e => exact unnoticed_throw (fault e)

theorem unnoticed_update (f : Session → Session) :
    Unnoticed (update f : SessionM (ω × List Deed) Unit) (update f) :=
  fun _ _ journal => ⟨journal, rfl⟩

theorem unnoticed_fromProfile (part : Profile → Except Profile.Invalid α) :
    Unnoticed (fromProfile part : SessionM (ω × List Deed) α) (fromProfile part) := by
  unfold fromProfile
  apply unnoticed_get
  intro s w journal
  dsimp only
  split
  · exact unnoticed_pure _
  · exact unnoticed_throw _

variable (env : Surroundings ω)

theorem unnoticed_findServer : Unnoticed (findServer env.journaled) (findServer env) := by
  unfold findServer
  refine (unnoticed_fromProfile _).bind fun target => ?_
  refine (unnoticed_act fun _ _ => ⟨_, rfl⟩).bind fun candidates => ?_
  split
  · exact unnoticed_pure _
  · exact unnoticed_throw _

theorem unnoticed_serverRoute (endpoint : Socket) :
    Unnoticed (serverRoute env.journaled endpoint) (serverRoute env endpoint) := by
  unfold serverRoute
  apply unnoticed_get
  intro s w journal
  dsimp only
  split
  · split
    · exact unnoticed_pure _
    · exact (unnoticed_attempt fun _ _ => ⟨_, rfl⟩).bind fun _ => unnoticed_pure _
  · exact unnoticed_pure _

theorem unnoticed_addRoutes (routes : List Route) :
    Unnoticed (addRoutes env.journaled routes) (addRoutes env routes) := by
  induction routes with
  | nil => exact unnoticed_pure ()
  | cons route routes ih =>
      unfold addRoutes
      refine (unnoticed_attempt fun _ _ => ⟨_, rfl⟩).bind fun addition => ?_
      cases addition with
      | installed => exact (unnoticed_update _).bind fun _ => ih
      | alreadyPresent => exact ih

theorem unnoticed_verify (endpoint : Socket) :
    Unnoticed (verify env.journaled endpoint) (verify env endpoint) := by
  unfold verify
  apply unnoticed_get
  intro s w journal
  dsimp only
  refine (unnoticed_act fun _ _ => ⟨_, rfl⟩).bind fun answered => ?_
  have hthrow : ∀ reachable : Bool,
      Unnoticed (if reachable = true then throw (.handshakeIncomplete endpoint.text)
          else throw (.serverUnreachable endpoint.text) : SessionM (ω × List Deed) Unit)
        (if reachable = true then throw (.handshakeIncomplete endpoint.text)
          else throw (.serverUnreachable endpoint.text)) := by
    intro reachable
    split <;> exact unnoticed_throw _
  split
  · exact unnoticed_pure ()
  · split
    · exact hthrow true
    · exact (unnoticed_act fun _ _ => ⟨_, rfl⟩).bind hthrow

theorem unnoticed_raise : Unnoticed (raise env.journaled) (raise env) := by
  unfold raise
  refine (unnoticed_fromProfile _).bind fun address => ?_
  refine (unnoticed_findServer env).bind fun endpoint => ?_
  apply unnoticed_get
  intro s w journal
  dsimp only
  refine (unnoticed_attempt fun _ _ => ⟨_, rfl⟩).bind fun _ => ?_
  refine (unnoticed_update _).bind fun _ => ?_
  refine (unnoticed_attempt fun _ _ => ⟨_, rfl⟩).bind fun _ => ?_
  refine (unnoticed_serverRoute env endpoint).bind fun before => ?_
  refine (unnoticed_addRoutes env _).bind fun _ => ?_
  refine Unnoticed.bind (fun _ _ journal => ⟨journal, rfl⟩) fun _ => ?_
  exact unnoticed_verify env endpoint

/-! ## Calls with a journal -/

/-- What a call does, with the journal left out. -/
def unjournaled {ρ : Type} (r : ρ × Session × ω × List Deed) : ρ × Session × ω :=
  (r.1, r.2.1, r.2.2.1)

theorem removeRoutes_journaled (routes : List Route) (x : ω × List Deed) :
    (removeRoutes env.journaled routes x).1 = removeRoutes env routes x.1 := by
  induction routes generalizing x with
  | nil => rfl
  | cons route routes ih => exact ih _

/-- A backend that is stopped does so, or is given up. -/
theorem stopBackend_cases (x : ω × List Deed) :
    stopBackend env.journaled x = (stopBackend env x.1, x.2 ++ [.stop true]) ∨
      stopBackend env.journaled x = (stopBackend env x.1, x.2 ++ [.stop false] ++ [.abort]) := by
  unfold stopBackend
  cases hstop : env.backend.stop none x.1 with
  | mk result w =>
      have hjournaled : env.journaled.backend.stop none x =
          (result, w, x.2 ++ [.stop (result.any (·.isOk))]) := by
        simp only [Surroundings.journaled, Surroundings.noting, hstop]
      rw [hjournaled]
      match result with
      | some (.ok ()) => exact Or.inl rfl
      | some (.error _) => exact Or.inr rfl
      | none => exact Or.inr rfl

theorem undo_journaled (s : Session) (x : ω × List Deed) :
    (undo env.journaled (s, x)).1 = (undo env (s, x.1)).1 ∧
      (undo env.journaled (s, x)).2.1 = (undo env (s, x.1)).2 := by
  refine ⟨rfl, ?_⟩
  unfold undo
  dsimp only
  have hremoved := removeRoutes_journaled env s.installed.reverse x
  split
  · rcases stopBackend_cases env (removeRoutes env.journaled s.installed.reverse x) with
      hstop | hstop <;> rw [hstop, hremoved]
  · exact hremoved

theorem connect_journaled (s : Session) (x : ω × List Deed) :
    unjournaled (connect env.journaled (s, x)) = connect env (s, x.1) := by
  obtain ⟨w, journal⟩ := x
  unfold connect
  dsimp only
  split
  · rfl
  · obtain ⟨journal', hrun⟩ := unnoticed_raise env { s with state := .connecting } w journal
    rw [hrun]
    cases hresult : (raise env).run ({ s with state := .connecting }, w) with
    | mk result y =>
        obtain ⟨s', w'⟩ := y
        cases result with
        | ok u => rfl
        | error fault =>
            obtain ⟨hsession, hworld⟩ := undo_journaled env s' (w', journal')
            simp only [unjournaled, hsession, hworld]

theorem disconnect_journaled (s : Session) (x : ω × List Deed) :
    unjournaled (disconnect env.journaled (s, x)) = disconnect env (s, x.1) := by
  unfold disconnect
  dsimp only
  split
  · obtain ⟨hsession, hworld⟩ := undo_journaled env { s with state := .disconnecting } x
    simp only [unjournaled, hsession, hworld]
  · rfl

/-- **A session does not notice that it keeps a journal.** -/
theorem serve_journaled (s : Session) (x : ω × List Deed) (calls : List Call) :
    serve env (s, x.1) calls =
      ((serve env.journaled (s, x) calls).1, (serve env.journaled (s, x) calls).2.1) := by
  induction calls generalizing s x with
  | nil => rfl
  | cons call calls ih =>
      have hcall : unjournaled (perform env.journaled (s, x) call) = perform env (s, x.1) call := by
        cases call with
        | connect => exact connect_journaled env s x
        | disconnect => exact disconnect_journaled env s x
      rw [serve, serve, ← hcall]
      exact ih _ _

end Session

end OverlayVpn
