import OverlayVpn.Client.Session
import OverlayVpn.Tunnel.EngineTunnel

set_option autoImplicit false

/-! # Rehearsals

A stage stands in for all that a tunnel is made of: an engine, a whole backend, a routing table
and a prober that behave as a script says and keep a journal of what they were asked. Time on a
stage passes only where the script lets somebody wait. -/

namespace OverlayVpn

/-- How the engine on a stage closes. -/
inductive ScriptedClosing where
  | well
  | badly
  | breakingDown
  deriving DecidableEq, Repr

/-- What a stage's players do. -/
structure Script where
  createError : Option String := none
  /-- Bodies that hold a text are refused with a number. -/
  rejectSet : List (String × Int) := []
  getErrno : Option Int := none
  dump : List String := []
  upError : Option String := none
  closeDelayMs : Nat := 0
  closing : ScriptedClosing := .well
  removeError : Bool := false
  startError : Option String := none
  stopDelayMs : Nat := 0
  stopError : Bool := false
  /-- Keys that the backend does not take. -/
  reject : List String := []
  /-- Keys that the backend does not give up. -/
  rejectRemove : List String := []
  stats : Option Transfer := none
  defaultRoute : Option DefaultRoute := none
  /-- Routes, by their texts, that cannot be added. -/
  failAdd : List String := []
  /-- Routes that are there already. -/
  present : List String := []
  /-- Routes that cannot be removed. -/
  failRemove : List String := []
  /-- Addresses that answer. -/
  reachable : List String := []

/-- A stage. -/
structure Stage where
  script : Script := {}
  /-- What the players were asked, the latest first. -/
  journal : List String := []
  /-- How much time has passed, in milliseconds. -/
  elapsedMs : Nat := 0
  /-- How often a peer or a device was to be configured. -/
  requests : Nat := 0
  /-- The state of the backend that stands in for a whole one. -/
  running : Bool := false
  peers : KeyMap TunnelPeer := ∅

namespace Stage

/-- The stage after an entry in the journal. -/
def note (s : Stage) (entry : String) : Stage := { s with journal := entry :: s.journal }

/-- Waits for a time, or up to a limit; says whether the whole time passed. -/
def wait (s : Stage) (ms : Nat) (limit : Option Nat) : Bool × Stage :=
  match limit with
  | some limit =>
    (ms ≤ limit, { s with elapsedMs := s.elapsedMs + min ms limit })
  | none => (true, { s with elapsedMs := s.elapsedMs + ms })

/-! ## The engine -/

/-- The number with which the script refuses a body. -/
def refusal? (s : Stage) (body : String) : Option Int :=
  (s.script.rejectSet.find? fun (part, _) => Text.holds part body).map (·.2)

/-- The engine of a stage; its devices are the names of their interfaces. -/
def engine : Engine Stage String where
  create interface s :=
    let s := s.note ("create " ++ interface)
    match s.script.createError with
    | some reason => (.error (.startup reason), s)
    | none => (.ok interface, s)
  set _ body s :=
    let s := { s.note ("set " ++ body) with requests := s.requests + 1 }
    match s.refusal? body with
    | some code => (.error (.reply (.errno code)), s)
    | none => (.ok (), s)
  get _ s :=
    let s := s.note "get"
    match s.script.getErrno with
    | some code => (.error (.reply (.errno code)), s)
    | none => (.ok s.script.dump, s)
  activate device address s :=
    let s := s.note ("up " ++ address)
    match s.script.upError with
    | some stderr =>
      (.error (.command (.failure s!"ip address add {address} dev {device}" stderr)), s)
    | none => (.ok (), s)
  close _ limit s :=
    let (whole, s) := (s.note "close").wait s.script.closeDelayMs limit
    if ! whole then (.cutOff, s)
    else match s.script.closing with
      | .well => (.closed, s)
      | .badly => (.failed (.startup "device busy"), s)
      | .breakingDown => (.brokeDown, s)
  deleteLink device s :=
    let s := s.note ("remove " ++ device)
    if s.script.removeError then (.error (.startup "link busy"), s) else (.ok (), s)
  discard _ s := s

/-! ## The backend -/

/-- A peer in the journal. -/
def peerEntry (p : TunnelPeer) : String :=
  let endpoint := (p.endpoint.map Socket.text).getD "-"
  let keepalive := (p.keepalive.map fun k => Text.Decimal.render k.toNat).getD "-"
  "peer " ++ p.publicKey ++ " [" ++ Text.join "," p.allowedAddresses ++ "] " ++ endpoint ++ " " ++
    keepalive

/-- The backend that stands in for a whole one. It does not look at keys. -/
def standIn : Backend (EngineTunnel String × Stage) where
  start config x :=
    let (b, s) := x
    let s := s.note ("start " ++ config.interfaceName ++ " " ++
      Text.Decimal.render config.listenPort.toNat ++ " " ++ config.serverCidr)
    match s.script.startError with
    | some reason => (.error (.engine (.startup reason)), b, s)
    | none =>
      if s.running then (.error .alreadyRunning, b, s) else (.ok (), b, { s with running := true })
  stop limit x :=
    let (b, s) := x
    let (whole, s) := (s.note "stop").wait s.script.stopDelayMs limit
    if ! whole then (none, b, s)
    else if s.script.stopError then (some (.error .deviceMissing), b, s)
    else (some (.ok ()), b, { s with running := false, peers := ∅ })
  insertPeer peer x :=
    let (b, s) := x
    let s := { s.note (peerEntry peer) with requests := s.requests + 1 }
    if ! s.running then (.error .notRunning, b, s)
    else if s.script.reject.contains peer.publicKey then
      (.error (.engine (.startup "peer rejected")), b, s)
    else (.ok (), b, { s with peers := s.peers.insert peer.publicKey peer })
  erasePeer key x :=
    let (b, s) := x
    let s := s.note ("unpeer " ++ key)
    if s.script.rejectRemove.contains key then (.error .notRunning, b, s)
    else (.ok (), b, { s with peers := s.peers.erase key })
  knownPeers x := x.2.peers.values
  isRunning x := x.2.running
  transferred x :=
    let (b, s) := x
    let s := s.note "stats"
    match s.script.stats with
    | some stats => (some (.ok stats), b, s)
    | none => (some (.error .notRunning), b, s)
  abort x := (x.1, { x.2.note "abort" with running := false, peers := ∅ })

/-- The backend that drives the stage's engine. -/
def driven : Backend (EngineTunnel String × Stage) := EngineTunnel.backend engine

/-- The state of a backend in a new process on the same stage. -/
def fresh (x : EngineTunnel String × Stage) : EngineTunnel String × Stage :=
  ({}, { x.2 with running := false, peers := ∅ })

/-! ## The surroundings of a session -/

/-- What the system says when it does not change a route. -/
def routeFailure (verb : String) (route : Route) : RoutingFault :=
  .command (.failure s!"ip -4 route {verb} {route.text}"
    "RTNETLINK answers: Operation not permitted")

/-- The stage's routing table. -/
def routes : RouteTable (EngineTunnel String × Stage) where
  current x :=
    let (b, s) := x
    let s := s.note "default"
    match s.script.defaultRoute with
    | some route => (.ok route, b, s)
    | none => (.error (.defaultRoute .missing), b, s)
  add route x :=
    let (b, s) := x
    let s := s.note ("add " ++ route.text)
    if s.script.failAdd.contains route.text then (.error (routeFailure "add" route), b, s)
    else if s.script.present.contains route.text then (.ok .alreadyPresent, b, s)
    else (.ok .installed, b, s)
  remove route x :=
    let (b, s) := x
    let s := s.note ("del " ++ route.text)
    if s.script.failRemove.contains route.text then (.error (routeFailure "del" route), b, s)
    else (.ok (), b, s)

/-- The surroundings of a session on a stage, at a moment. Only literal endpoints can be
resolved. -/
def surroundings (backend : Backend (EngineTunnel String × Stage)) (now : Timestamp) :
    Surroundings (EngineTunnel String × Stage) where
  backend := backend
  routes := routes
  probe address ms x :=
    let s := x.2.note s!"probe {address.text} {Text.Decimal.render ms}ms"
    (s.script.reachable.contains address.text, x.1, s)
  resolve target x := ((Socket.read? target).map ([·]), x)
  sleep seconds x := (x.1, (x.2.wait (seconds * 1000) none).2)
  now x := (now, x)

end Stage

end OverlayVpn
