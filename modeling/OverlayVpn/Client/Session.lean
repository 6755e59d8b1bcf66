import OverlayVpn.Client.Profile
import OverlayVpn.Client.Route
import OverlayVpn.Client.Plan
import OverlayVpn.Tunnel.Backend

set_option autoImplicit false

/-! # A client's session

A session brings a tunnel up and takes it down again. It owns what it makes on the way up: the
tunnel itself and the routes that it added. Going down removes exactly those routes, the newest
first, and then stops the tunnel; a way up that fails is undone in the same manner. -/

namespace OverlayVpn

/-- Where a session stands. -/
inductive SessionPhase where
  | disconnected
  | connecting
  | connected
  | disconnecting
  deriving DecidableEq, Repr

/-- The name of a state. -/
def SessionPhase.name : SessionPhase → String
  | disconnected => "disconnected"
  | connecting => "connecting"
  | connected => "connected"
  | disconnecting => "disconnecting"

/-- What is wrong with what a session was given. -/
inductive SessionReason where
  | settings (fault : SessionPlan.Fault)
  | profile (fault : Profile.Invalid)
  deriving DecidableEq, Repr

/-- What is said of a reason. -/
def SessionReason.message : SessionReason → String
  | settings fault => fault.message
  | profile fault => fault.message

/-- Why a session does not do what is asked. -/
inductive SessionFault where
  | alreadyConnected
  | notConnected
  | invalidConfig (reason : SessionReason)
  | backend (fault : BackendFault)
  | routing (fault : RoutingFault)
  /-- The server answers, but not through the tunnel. -/
  | handshakeIncomplete (server : String)
  | serverUnreachable (endpoint : String)
  deriving DecidableEq, Repr

namespace SessionFault

/-- What to do when the server answers, but not through the tunnel. -/
def tunnelAdvice : String :=
  "the server answers but the tunnel handshake did not complete; " ++
    "allow outbound UDP to the server port in local firewalls, try another network if this one " ++
    "uses restrictive NAT, and make sure the server still has this client registered"

/-- What to do when the server does not answer. -/
def networkAdvice : String :=
  "the server cannot be reached from this network; " ++
    "check your internet connection and the server endpoint in the session profile"

/-- What is said of a fault. -/
def message : SessionFault → String
  | alreadyConnected => "tunnel is already connected"
  | notConnected => "tunnel is not connected"
  | invalidConfig reason => "invalid session configuration: " ++ reason.message
  | backend fault => "tunnel backend error: " ++ fault.message
  | routing fault => "routing error: " ++ fault.message
  | handshakeIncomplete server =>
    s!"handshake with {server} did not complete: {tunnelAdvice}"
  | serverUnreachable endpoint => s!"server {endpoint} is unreachable: {networkAdvice}"

end SessionFault

/-- What a session works with: a backend, a routing table, a prober, a resolver and a clock, all in
one world `ω`. -/
structure Surroundings (ω : Type) where
  backend : Backend ω
  routes : RouteTable ω
  /-- Whether an address answers within a time in milliseconds. -/
  probe : IpAddress → Nat → ω → Bool × ω
  /-- The socket addresses of an endpoint; `none` when it cannot be resolved. -/
  resolve : String → ω → Option (List Socket) × ω
  /-- Lets seconds pass. -/
  sleep : Nat → ω → ω
  now : ω → Timestamp × ω

/-- A session. -/
structure Session where
  profile : Profile
  settings : SessionPlan
  state : SessionPhase := .disconnected
  /-- The routes that the session added, the oldest first. -/
  installed : List Route := []
  backendStarted : Bool := false
  connectedSince : Option Timestamp := none
  deriving DecidableEq

/-- What a session does in a world `ω`; what was changed stays changed when it fails. -/
abbrev SessionM (ω : Type) := ExceptT SessionFault (StateM (Session × ω))

namespace Session

variable {ω α : Type}

/-- Whether the tunnel is up. -/
def isUp (s : Session) : Bool := s.state == .connected

/-- Acts on the world. -/
def act (f : ω → α × ω) : SessionM ω α :=
  modifyGet fun (s, w) =>
    let (a, w) := f w
    (a, s, w)

/-- Acts on the world, where that may fail. -/
def attempt {ε : Type} (fault : ε → SessionFault) (f : ω → Except ε α × ω) : SessionM ω α := do
  match ← act f with
  | .ok a => return a
  | .error e => throw (fault e)

/-- Changes the session. -/
def update (f : Session → Session) : SessionM ω Unit := modify fun (s, w) => (f s, w)

/-- A part of the profile, if it makes sense. -/
def fromProfile (part : Profile → Except Profile.Invalid α) : SessionM ω α := do
  match part (← get).1.profile with
  | .ok a => return a
  | .error fault => throw (.invalidConfig (.profile fault))

/-- Of several addresses an IPv4 one is preferred, since routes are IPv4 only. -/
def choose (candidates : List Socket) : Option Socket :=
  let isV4 (s : Socket) : Bool := match s.address with
    | .v4 _ => true
    | .v6 _ => false
  candidates.find? isV4 <|> candidates.head?

/-- The server's socket address. -/
def findServer (env : Surroundings ω) : SessionM ω Socket := do
  let target ← fromProfile Profile.explicitEndpoint
  match (← act (env.resolve target)).bind choose with
  | some socket => return socket
  | none => throw (.serverUnreachable target)

/-- The lower half of all IPv4 addresses. -/
def lowerHalf : Network := { address := .ofOctets 0 0 0 0, length := 1 }

/-- The upper half of all IPv4 addresses. -/
def upperHalf : Network := { address := .ofOctets 128 0 0 0, length := 1 }

/-- The routes into the tunnel. The two halves together override the default route without
replacing it. -/
def tunnelRoutes (settings : SessionPlan) : List Route :=
  let through (n : Network) : Route := { destination := n, device := settings.interfaceName }
  match settings.routeMode with
  | .subnet => [through settings.tunnelNetwork]
  | .full => [through lowerHalf, through upperHalf]

/-- The route that keeps the encrypted traffic on the old default route, where one is needed: when
everything goes through the tunnel and the server is another machine with an IPv4 address. -/
def serverRoute (env : Surroundings ω) (endpoint : Socket) : SessionM ω (List Route) := do
  match (← get).1.settings.routeMode, endpoint.address with
  | .full, .v4 server =>
    if server.isLoopback then return []
    let current ← attempt .routing env.routes.current
    return [{ destination := .host server, via := current.gateway, device := current.device }]
  | _, _ => return []

/-- Adds routes in turn and remembers those that were not there before. -/
def addRoutes (env : Surroundings ω) : List Route → SessionM ω Unit
  | [] => return ()
  | route :: rest => do
    match ← attempt .routing (env.routes.add route) with
    | .installed => update fun s => { s with installed := s.installed ++ [route] }
    | .alreadyPresent => pure ()
    addRoutes env rest

/-- Checks that the tunnel carries traffic. -/
def verify (env : Surroundings ω) (endpoint : Socket) : SessionM ω Unit := do
  let s := (← get).1
  let peer := IpAddress.v4 s.profile.serverTunnelAddress
  if ← act (env.probe peer (s.settings.tunnelProbeTimeout * 1000)) then return ()
  -- nothing but the tunnel can be at fault when the server is this machine
  let reachable ← if endpoint.address.isLoopback then pure true
    else act (env.probe endpoint.address (s.settings.probeTimeout * 1000))
  if reachable then throw (.handshakeIncomplete endpoint.text)
  else throw (.serverUnreachable endpoint.text)

/-- Brings the tunnel up, as far as it goes. -/
def raise (env : Surroundings ω) : SessionM ω Unit := do
  let address ← fromProfile Profile.ownNetwork
  let endpoint ← findServer env
  let s := (← get).1
  attempt .backend (env.backend.start
    { interfaceName := s.settings.interfaceName
      privateKey := s.profile.clientPrivateKey
      listenPort := 0
      serverCidr := address.text })
  update fun s => { s with backendStarted := true }
  attempt .backend (env.backend.insertPeer
    { publicKey := s.profile.serverPublicKey
      allowedAddresses := ["0.0.0.0/0"]
      endpoint := some endpoint
      keepalive := some s.settings.keepalive })
  let before ← serverRoute env endpoint
  addRoutes env (before ++ tunnelRoutes s.settings)
  modify fun (s', w) => (s', env.sleep s.settings.handshakeGrace w)
  verify env endpoint

/-- Removes routes in turn; one that cannot be removed is left. -/
def removeRoutes (env : Surroundings ω) : List Route → ω → ω
  | [], w => w
  | route :: rest, w => removeRoutes env rest (env.routes.remove route w).2

/-- Stops the backend, or gives it up when that fails. -/
def stopBackend (env : Surroundings ω) (w : ω) : ω :=
  match env.backend.stop none w with
  | (some (.ok ()), w) => w
  | (_, w) => env.backend.abort w

/-- Removes the session's routes, the newest first, and then stops its backend. -/
def undo (env : Surroundings ω) (x : Session × ω) : Session × ω :=
  let (s, w) := x
  let w := removeRoutes env s.installed.reverse w
  let w := if s.backendStarted then stopBackend env w else w
  ({ s with installed := [], backendStarted := false }, w)

/-- Brings the tunnel up and checks that it carries traffic. What a failure leaves is undone. -/
def connect (env : Surroundings ω) (x : Session × ω) : Except SessionFault Unit × Session × ω :=
  let (s, w) := x
  if s.isUp then (.error .alreadyConnected, s, w)
  else
    match (raise env).run ({ s with state := .connecting }, w) with
    | (.ok (), s, w) =>
      let (since, w) := env.now w
      (.ok (), { s with state := .connected, connectedSince := some since }, w)
    | (.error fault, x) =>
      let (s, w) := undo env x
      (.error fault, { s with state := .disconnected }, w)

/-- Takes the tunnel down; failures on the way do not keep it up. -/
def disconnect (env : Surroundings ω) (x : Session × ω) :
    Except SessionFault Unit × Session × ω :=
  let (s, w) := x
  if s.isUp then
    let (s, w) := undo env ({ s with state := .disconnecting }, w)
    (.ok (), { s with state := .disconnected, connectedSince := none }, w)
  else (.error .notConnected, s, w)

/-- What passed through the tunnel, if it is up and the backend can tell; without a reply, the
backend's call broke off. -/
def transfer (env : Surroundings ω) (x : Session × ω) : Option (Option Transfer) × Session × ω :=
  let (s, w) := x
  if s.isUp then
    let (stats, w) := env.backend.transferred w
    (stats.map Except.toOption, s, w)
  else (some none, s, w)

/-- Where the session stands, as a document. -/
def statusJson (s : Session) (transfer : Option Transfer) : Json :=
  .ofMembers [("state", .string s.state.name),
    ("serverEndpoint", .string s.profile.serverEndpoint),
    ("assignedAddress", .string s.profile.assignedAddress),
    ("registeredAt", .string s.profile.registeredAt.text),
    ("connectedSince", match s.connectedSince with
      | some since => .string since.text
      | none => .null),
    ("transfer", match transfer with
      | some stats => stats.toJson
      | none => .null)]

/-- A session with the settings that a configuration gives. -/
def create (profile : Profile) (config : ClientConfig) : Except SessionFault Session :=
  match SessionPlan.ofConfig config with
  | .ok settings => .ok { profile, settings }
  | .error fault => .error (.invalidConfig (.settings fault))

end Session

end OverlayVpn
