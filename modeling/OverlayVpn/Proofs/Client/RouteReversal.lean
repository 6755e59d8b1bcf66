import Mathlib.Data.Set.Insert
import OverlayVpn.Proofs.Client.Lifecycle

set_option autoImplicit false

/-! # What a session leaves of the routing table

In a world with a routing table (`Surroundings.HasTable`) a session changes nothing but its own
routes. While it is connected the table holds them besides what it held before, none of them was
there before, and when the session is disconnected the table is what it was (`routes_reversed`).
The journal shows that the newest route always goes first (`Deed.routesAfter`). -/

namespace OverlayVpn

/-! ## Routes in a journal -/

/-- The routes that are left after a deed, the oldest first; `none` when the deed removes a route
that is not the newest. -/
def Deed.turn (routes : List Route) : Deed → Option (List Route)
  | .addRoute route (some .installed) => some (routes ++ [route])
  | .removeRoute route _ =>
    if routes.getLast? = some route then some routes.dropLast else none
  | _ => some routes

/-- The routes that were added and not removed since, the oldest first. -/
def Deed.routesAfter (journal : List Deed) : Option (List Route) := journal.foldlM Deed.turn []

/-- The routes of a tunnel that stands in some way. -/
def Standing.routes : Standing → List Route
  | .up routes | .lowering routes => routes
  | .down | .stuck => []

/-- A deed in its turn removes no route but the newest. -/
theorem Standing.turn_of_next {standing standing' : Standing} {deed : Deed}
    (h : standing.next deed = some standing') :
    deed.turn standing.routes = some standing'.routes := by
  have hlower (routes : List Route) (route : Route) (done : Bool)
      (h : Standing.lower routes route = some standing') :
      (Deed.removeRoute route done).turn routes = some standing'.routes := by
    unfold Standing.lower at h
    split at h
    · next hlast =>
        obtain rfl := Option.some.inj h
        exact if_pos hlast
    · cases h
  -- a backend has no routes before it has started, nor when it is stopped
  have hbare (done : Bool) (a b : Standing) (ha : a.routes = []) (hb : b.routes = [])
      (h : some (if done then a else b) = some standing') : standing'.routes = [] := by
    obtain rfl := Option.some.inj h
    cases done
    · exact hb
    · exact ha
  unfold Standing.next at h
  split at h
  · exact congrArg some (hbare _ _ _ rfl rfl h).symm
  · obtain rfl := Option.some.inj h
    rfl
  · obtain rfl := Option.some.inj h
    rfl
  · next outcome hne =>
      obtain rfl := Option.some.inj h
      match outcome with
      | some .installed => exact (hne rfl).elim
      | some .alreadyPresent => rfl
      | none => rfl
  · exact hlower _ _ _ h
  · exact hlower _ _ _ h
  · exact congrArg some (hbare _ _ _ rfl rfl h).symm
  · exact congrArg some (hbare _ _ _ rfl rfl h).symm
  · obtain rfl := Option.some.inj h
    rfl
  · cases h

/-- Whoever knows how the tunnel stands knows its routes. -/
theorem Standing.routesAfter_of_after {journal : List Deed} {standing : Standing}
    (h : Standing.after journal = some standing) :
    Deed.routesAfter journal = some standing.routes := by
  have hrun (start : Standing) (h : journal.foldlM Standing.next start = some standing) :
      journal.foldlM Deed.turn start.routes = some standing.routes := by
    clear * - h
    induction journal generalizing start with
    | nil =>
        obtain rfl := Option.some.inj h
        rfl
    | cons deed journal ih =>
        obtain ⟨middle, hnext, hrest⟩ := Option.bind_eq_some_iff.mp h
        exact Option.bind_eq_some_iff.mpr ⟨_, Standing.turn_of_next hnext, ih middle hrest⟩
  exact hrun .down h

/-! ## Routes in the table -/

variable {ω : Type}

/-- The world has a routing table that only adding and removing routes changes. A route that is
absent may be added; otherwise the table stays as it is, and the answer is another. A route that is
removed is gone, whatever the answer. -/
structure Surroundings.HasTable (env : Surroundings ω) (table : ω → Set Route) : Prop where
  start : ∀ settings w, table (env.backend.start settings w).2 = table w
  stop : ∀ limit w, table (env.backend.stop limit w).2 = table w
  insertPeer : ∀ peer w, table (env.backend.insertPeer peer w).2 = table w
  abort : ∀ w, table (env.backend.abort w) = table w
  current : ∀ w, table (env.routes.current w).2 = table w
  probe : ∀ address limit w, table (env.probe address limit w).2 = table w
  resolve : ∀ target w, table (env.resolve target w).2 = table w
  sleep : ∀ seconds w, table (env.sleep seconds w) = table w
  now : ∀ w, table (env.now w).2 = table w
  add : ∀ route w,
    (route ∉ table w ∧ (env.routes.add route w).1 = .ok .installed ∧
      table (env.routes.add route w).2 = insert route (table w)) ∨
    ((env.routes.add route w).1 ≠ .ok .installed ∧ table (env.routes.add route w).2 = table w)
  remove : ∀ route w, table (env.routes.remove route w).2 = table w \ {route}

namespace Session

variable {env : Surroundings ω} {table : ω → Set Route}

/-- The table holds routes besides those of `before`, each of them once. -/
structure Extends (before : Set Route) (routes : List Route) (now : Set Route) : Prop where
  mem_iff : ∀ r, r ∈ now ↔ r ∈ before ∨ r ∈ routes
  new : ∀ r ∈ routes, r ∉ before
  nodup : routes.Nodup

variable {before now : Set Route} {routes : List Route} {route : Route}

theorem Extends.nil (before : Set Route) : Extends before [] before :=
  ⟨by simp, by simp, List.nodup_nil⟩

theorem Extends.eq_of_nil (h : Extends before [] now) : now = before :=
  Set.ext fun r => by simpa using h.mem_iff r

theorem Extends.concat (h : Extends before routes now) (hnew : route ∉ now) :
    Extends before (routes ++ [route]) (insert route now) where
  mem_iff r := by
    rw [Set.mem_insert_iff, h.mem_iff, List.mem_append, List.mem_singleton]
    tauto
  new r hr := by
    rcases List.mem_append.mp hr with hr | hr
    · exact h.new r hr
    · rw [List.mem_singleton.mp hr]
      exact fun hbefore => hnew ((h.mem_iff route).mpr (Or.inl hbefore))
  nodup := by
    refine List.nodup_append.mpr ⟨h.nodup, List.pairwise_singleton _ route, ?_⟩
    rintro r hr _ hroute rfl
    rw [List.mem_singleton.mp hroute] at hr
    exact hnew ((h.mem_iff route).mpr (Or.inr hr))

/-- The newest route can be taken away, and the rest stays. -/
theorem Extends.dropLast (h : Extends before (routes ++ [route]) now) :
    Extends before routes (now \ {route}) where
  mem_iff r := by
    have hbefore : route ∉ before := h.new route (by simp)
    have hroutes : route ∉ routes := fun hmem =>
      (List.nodup_append.mp h.nodup).2.2 route hmem route (List.mem_singleton_self route) rfl
    rw [Set.mem_sdiff, h.mem_iff, List.mem_append, List.mem_singleton, Set.mem_singleton_iff]
    constructor
    · tauto
    · rintro (hr | hr)
      · exact ⟨Or.inl hr, fun heq => hbefore (heq ▸ hr)⟩
      · exact ⟨Or.inr (Or.inl hr), fun heq => hroutes (heq ▸ hr)⟩
  new r hr := h.new r (List.mem_append_left _ hr)
  nodup := (List.nodup_append.mp h.nodup).1

/-- A way up extends the table by the routes that the session remembers. -/
theorem carries_extends (h : env.HasTable table) (before : Set Route) :
    Carries env (fun s w => Extends before s.installed (table w))
      (fun s w => Extends before s.installed (table w)) where
  resolve {s w} target hw := by rwa [h.resolve]
  refused {s w} settings fault hw _ := by rwa [h.start]
  started {s w} settings hw _ := by rwa [h.start]
  insertPeer {s w} peer hw := by rwa [h.insertPeer]
  current {s w} hw := by rwa [h.current]
  installed {s w} route hw hadd := by
    rcases h.add route w with ⟨hnew, -, htable⟩ | ⟨hne, -⟩
    · rw [htable]
      exact hw.concat hnew
    · exact absurd hadd hne
  notInstalled {s w} route hw hadd := by
    rcases h.add route w with ⟨-, hinstalled, -⟩ | ⟨-, htable⟩
    · exact absurd hinstalled hadd
    · rwa [htable]
  sleep {s w} seconds hw := by rwa [h.sleep]
  probe {s w} address limit hw := by rwa [h.probe]

/-- **What is undone is the table as it was before.** -/
theorem table_undo (h : env.HasTable table) {s : Session} {w : ω}
    (hw : Extends before s.installed (table w)) : table (undo env (s, w)).2 = before := by
  have hremoved : Extends before [] (table (removeRoutes env s.installed.reverse w)) := by
    refine removeRoutes_reverse (P := fun routes w => Extends before routes (table w)) ?_ hw
    intro routes route w hw
    rw [h.remove]
    exact hw.dropLast
  have hstop (w : ω) : table (stopBackend env w) = table w := by
    unfold stopBackend
    have hstopped := h.stop none w
    split
    · next hresult => rwa [hresult] at hstopped
    · next hresult => rw [h.abort]; rwa [hresult] at hstopped
  unfold undo
  dsimp only
  split
  · rw [hstop, hremoved.eq_of_nil]
  · exact hremoved.eq_of_nil

/-- **Every call leaves the table with the session's own routes besides the others.** -/
theorem extends_perform (h : env.HasTable table) (before : Set Route) (s : Session) (w : ω)
    (call : Call) (hw : Extends before s.installed (table w)) :
    Extends before (perform env (s, w) call).2.1.installed
      (table (perform env (s, w) call).2.2) := by
  have hundo (s : Session) (w : ω) (hw : Extends before s.installed (table w)) :
      Extends before [] (table (undo env (s, w)).2) := by
    rw [table_undo h hw]
    exact .nil before
  cases hup : s.isUp with
  | true =>
      cases call with
      | connect => rwa [perform, connect_of_isUp hup]
      | disconnect =>
          rw [perform, disconnect_of_isUp hup]
          exact hundo _ w hw
  | false =>
      cases call with
      | connect =>
          have hw : Extends before { s with state := .connecting }.installed (table w) := hw
          rcases connect_of_ends hup ((carries_extends h before).raise hw) with
            ⟨s', w', hw', hconnect⟩ | ⟨fault, s', w', hleft, hconnect⟩
          · rw [perform, hconnect]
            show Extends before s'.installed (table (env.now w').2)
            rwa [h.now]
          · rw [perform, hconnect]
            exact hundo s' w' (hleft.elim id id)
      | disconnect => rwa [perform, disconnect_of_not_isUp hup]

/-- **The way back restores the routing table.** When a session is disconnected the table is what
it was at first; when it is connected the table holds the session's routes besides, none of which it
held at first. Routes are removed in the reverse of the order in which they were added: no deed of
the journal removes a route but the newest. -/
theorem routes_reversed (h : env.HasTable table) (profile : Profile) (settings : SessionPlan) (w : ω)
    (calls : List Call) :
    let x := serve env ({ profile, settings }, w) calls
    let journal := (serve env.journaled ({ profile, settings }, w, []) calls).2.2
    ((x.1.state = .disconnected ∧ table x.2 = table w) ∨
        (x.1.state = .connected ∧ table x.2 = table w ∪ {r | r ∈ x.1.installed} ∧
          ∀ r ∈ x.1.installed, r ∉ table w)) ∧
      Deed.routesAfter journal = some x.1.installed := by
  intro x journal
  have hsame : x = _ := serve_journaled env { profile, settings } (w, []) calls
  have hextends : Extends (table w) x.1.installed (table x.2) :=
    serve_induct (P := fun s w' => Extends (table w) s.installed (table w'))
      (extends_perform h (table w)) (.nil (table w)) calls
  have hsettled : Settled x.1 journal := by
    rw [hsame]
    exact settled_serve profile settings w calls
  rcases hsettled with ⟨hstate, hrest⟩ | ⟨hstate, hup, -⟩
  · rw [hrest.installed_eq] at hextends ⊢
    exact ⟨Or.inl ⟨hstate, hextends.eq_of_nil⟩, Standing.routesAfter_of_after hrest.after_eq⟩
  · exact ⟨Or.inr ⟨hstate, Set.ext hextends.mem_iff, hextends.new⟩,
      Standing.routesAfter_of_after hup.after_eq⟩

/-! ## A machine with a routing table -/

/-- Surroundings that are no more than a routing table. The backend does what it is told, the
default route leads through a gateway, and every address answers. -/
def tableAlone (now : Timestamp) : Surroundings (List Route) where
  backend :=
    { start := fun _ table => (.ok (), table)
      stop := fun _ table => (some (.ok ()), table)
      insertPeer := fun _ table => (.ok (), table)
      erasePeer := fun _ table => (.ok (), table)
      knownPeers := fun _ => []
      isRunning := fun _ => true
      transferred := fun table => (some (.ok {}), table)
      abort := id }
  routes :=
    { current := fun table =>
        (.ok { gateway := some (.ofOctets 192 168 1 1), device := "eth0" }, table)
      add := fun route table =>
        if route ∈ table then (.ok .alreadyPresent, table) else (.ok .installed, route :: table)
      remove := fun route table => (.ok (), table.filter (· ≠ route)) }
  probe _ _ table := (true, table)
  resolve target table := ((Socket.read? target).map ([·]), table)
  sleep _ table := table
  now table := (now, table)

theorem hasTable_tableAlone (now : Timestamp) :
    (tableAlone now).HasTable fun table => {r | r ∈ table} where
  start _ _ := rfl
  stop _ _ := rfl
  insertPeer _ _ := rfl
  abort _ := rfl
  current _ := rfl
  probe _ _ _ := rfl
  resolve _ _ := rfl
  sleep _ _ := rfl
  now _ := rfl
  add route table := by
    by_cases hmem : route ∈ table
    · refine Or.inr ?_
      simp [tableAlone, hmem]
    · refine Or.inl ⟨hmem, ?_⟩
      simp only [tableAlone, hmem, if_false, true_and]
      ext r
      simp
  remove route table := by
    ext r
    simp [tableAlone]

/-- All traffic goes through the tunnel, and the route for the upper half is there already: the
session adds the route to the server and that for the lower half, and takes both away again. -/
theorem routes_reversed_beside_another :
    let now : Timestamp := ⟨⟨2024, 5, 1⟩, ⟨12, 0, 0, 0⟩, by decide, by decide⟩
    let profile : Profile :=
      { clientPrivateKey := "", clientPublicKey := "", serverPublicKey := ""
        serverEndpoint := "203.0.113.7:51820", assignedAddress := "10.0.0.2/32"
        serverTunnelAddress := .ofOctets 10 0 0 1, registeredAt := now }
    let settings : SessionPlan :=
      { interfaceName := "wg0", keepalive := 25, routeMode := .full
        tunnelNetwork := { address := .ofOctets 10 0 0 0, length := 24 }
        probeTimeout := 2, tunnelProbeTimeout := 3, handshakeGrace := 1 }
    let through (n : Network) : Route := { destination := n, device := "wg0" }
    let server : Route :=
      { destination := .host (.ofOctets 203 0 113 7), via := some (.ofOctets 192 168 1 1)
        device := "eth0" }
    let up := serve (tableAlone now) ({ profile, settings }, [through upperHalf]) [.connect]
    let down := serve (tableAlone now) ({ profile, settings }, [through upperHalf])
      [.connect, .disconnect]
    up.1.state = .connected ∧ up.1.installed = [server, through lowerHalf] ∧
      {r | r ∈ up.2} = {r | r ∈ [through upperHalf]} ∪ {r | r ∈ [server, through lowerHalf]} ∧
      down.1.state = .disconnected ∧ {r | r ∈ down.2} = {r | r ∈ [through upperHalf]} := by
  intro now profile settings through server up down
  have hstate : up.1.state = .connected := by decide +kernel
  have hinstalled : up.1.installed = [server, through lowerHalf] := by decide +kernel
  have hdown : down.1.state = .disconnected := by decide +kernel
  have htable := hasTable_tableAlone now
  obtain ⟨⟨hoff, -⟩ | ⟨-, hextends, -⟩, -⟩ :=
    routes_reversed htable profile settings [through upperHalf] [.connect]
  · rw [show up.1.state = .disconnected from hoff] at hstate
    cases hstate
  obtain ⟨⟨-, hrestored⟩ | ⟨hon, -⟩, -⟩ :=
    routes_reversed htable profile settings [through upperHalf] [.connect, .disconnect]
  · rw [← hinstalled]
    exact ⟨hstate, rfl, hextends, hdown, hrestored⟩
  · rw [show down.1.state = .connected from hon] at hdown
    cases hdown

end Session

end OverlayVpn
