import OverlayVpn.Cli.Options
import OverlayVpn.Cli.Outcome
import OverlayVpn.Client.Ping
import OverlayVpn.Client.SystemRoutes
import OverlayVpn.Engine.Launch
import OverlayVpn.Tunnel.EngineTunnel

set_option autoImplicit false

/-! # The client's program

The client enrols with a server's data, shows where it stands, brings its tunnel up until it is
interrupted, and forgets its profile. -/

namespace OverlayVpn.Cli.Client

variable {ω : Type}

/-! ## The command line -/

/-- What the client is told when it enrols. -/
structure Enrolment where
  serverKey : String
  endpoint : String
  address : String
  serverTunnelAddress : Ipv4
  /-- The client's private key; without it a fresh one is taken. -/
  privateKey : Option String

/-- What the client is asked to do. -/
inductive Action where
  | connect
  | status
  | keygen
  | enroll (enrolment : Enrolment)
  | forget

/-- A call of the client. -/
structure Call where
  /-- The configuration's file, if it is named. -/
  config : Option Path
  action : Action

/-- The options of every action. How much is logged makes no difference to what is printed. -/
def generalOptions : List OptionSpec :=
  [{ name := "config", letter := some 'c' }, { name := "log-level", letter := some 'l' }]

/-- The options of an enrolment. -/
def enrolmentOptions : List OptionSpec :=
  [{ name := "server-key" }, { name := "endpoint" }, { name := "address" },
    { name := "server-tunnel-address" }, { name := "private-key" }]

/-- The enrolment that arguments tell. -/
def Enrolment.read (args : List String) : Option Enrolment := do
  let options ← Options.read enrolmentOptions args
  if ! options.rest.isEmpty then none
  return {
    serverKey := ← options.value? "server-key"
    endpoint := ← options.value? "endpoint"
    address := ← options.value? "address"
    serverTunnelAddress := ← match options.value? "server-tunnel-address" with
      | some s => Ipv4.read? s
      | none => some Profile.defaultTunnelAddress
    privateKey := options.value? "private-key" }

/-- The action that arguments tell. -/
def Action.read : List String → Option Action
  | ["connect"] => some .connect
  | ["status"] => some .status
  | ["keygen"] => some .keygen
  | ["forget"] => some .forget
  | "enroll" :: args => (Enrolment.read args).map .enroll
  | _ => none

/-- The call that arguments tell. -/
def Call.read (args : List String) : Option Call := do
  let options ← Options.read generalOptions args
  if options.value? "config" = some "" then none
  return {
    config := (options.value? "config").map .ofText
    action := ← Action.read options.rest }

/-- How the client is called. -/
def usage : String :=
  "Usage: client [--config FILE] [--log-level LEVEL] <connect|status|keygen|enroll|forget>"

/-! ## Actions -/

/-- What an operation on the world gives when the world is the second part of a state. -/
def onWorld {α β : Type} (f : ω → α × ω) (x : β × ω) : α × β × ω :=
  let (a, w) := f x.2
  (a, x.1, w)

/-- What a session works with on a system. -/
def surroundings (sys : System ω) (settings : LaunchSettings) :
    Surroundings (EngineTunnel EngineProcess × ω) where
  backend := EngineTunnel.backend (EngineProcess.engine sys settings)
  routes :=
    { current := onWorld (SystemRoutes.table sys.run).current
      add := fun route => onWorld ((SystemRoutes.table sys.run).add route)
      remove := fun route => onWorld ((SystemRoutes.table sys.run).remove route) }
  probe target timeoutMs := onWorld (Ping.probe sys.run target timeoutMs)
  resolve target := onWorld (sys.resolve target)
  sleep seconds x := (x.1, sys.sleep (seconds * 1000) x.2)
  now := onWorld sys.now

/-- The failure that a session's fault is. -/
def sessionFailure (fault : SessionFault) : Outcome := .failure fault.message fault.causes

/-- The failure that a fault of the profile is. -/
def profileFailure (fault : Profile.Fault) : Outcome := .failure fault.message fault.causes

/-- A fresh pair of keys. -/
def keygen (fresh : Key) : Outcome :=
  let pair := KeyPair.ofPrivate fresh
  { printed := ["private_key = " ++ pair.privateKey, "public_key  = " ++ pair.publicKey] }

/-- The client's pair of keys: of the private key that is given, or of a fresh one. -/
def enrolmentKeys (e : Enrolment) (fresh : Key) : Except Key.Fault KeyPair :=
  match e.privateKey with
  | some text => (Key.read text).map fun key => ⟨text, key.publicKey.text⟩
  | none => .ok (.ofPrivate fresh)

/-- Makes the profile of an enrolment and keeps it. -/
def enroll (sys : System ω) (path : Path) (e : Enrolment) (fresh : Key) (w : ω) : Outcome × ω :=
  match enrolmentKeys e fresh with
  | .error fault => (.failure fault.message, w)
  | .ok pair =>
    let (registeredAt, w) := sys.now w
    let profile : Profile :=
      { clientPrivateKey := pair.privateKey
        clientPublicKey := pair.publicKey
        serverPublicKey := e.serverKey
        serverEndpoint := e.endpoint
        assignedAddress := e.address
        serverTunnelAddress := e.serverTunnelAddress
        registeredAt }
    match profile.validate with
    | .error fault => (.failure fault.message, w)
    | .ok () =>
      let (saved, disk) := profile.save (sys.disk w) path
      let w := sys.withDisk disk w
      match saved with
      | .error fault => (profileFailure fault, w)
      | .ok () => ({ printed := ["client public key: " ++ profile.clientPublicKey] }, w)

/-- Removes the profile. -/
def forget (sys : System ω) (path : Path) (w : ω) : Outcome × ω :=
  let (deleted, disk) := Profile.delete (sys.disk w) path
  (match deleted with
    | .error fault => profileFailure fault
    | .ok true => { printed := ["removed " ++ path.text] }
    | .ok false => { printed := ["no session profile at " ++ path.text] },
    sys.withDisk disk w)

/-- Shows where a session stands that is not up. -/
def status (sys : System ω) (config : Config) (path : Path) (w : ω) : Outcome :=
  match Profile.load (sys.disk w) path with
  | .error fault => profileFailure fault
  | .ok none => { printed := ["not registered (no profile at " ++ path.text ++ ")"] }
  | .ok (some profile) =>
    match Session.create profile config.client with
    | .error fault => sessionFailure fault
    | .ok session => { printed := [(session.statusJson none).text] }

/-- Brings the tunnel up, shows where it stands, and takes it down again when the program is
interrupted. -/
def runSession (sys : System ω) (config : Config) (session : Session) (w : ω) : Outcome × ω :=
  let env := surroundings sys (.ofConfig config.engine)
  match Session.connect env (session, ({} : EngineTunnel EngineProcess), w) with
  | (.error fault, x) => (sessionFailure fault, x.2.2)
  | (.ok (), x) =>
    -- an interruption follows the line that is shown
    match Session.transfer env x with
    | (none, x) =>
      -- the program ends at once: its engine ends with it, and its routes stay
      ({ ending := .brokenOff Transfer.overflowMessage }, (env.backend.abort x.2).2)
    | (some transfer, x) =>
      let shown := (x.1.statusJson transfer).text
      let (_, x) := Session.disconnect env x
      ({ printed := [shown] }, x.2.2)

/-- Connects with the profile at a path. -/
def connect (sys : System ω) (config : Config) (path : Path) (w : ω) : Outcome × ω :=
  match Profile.load (sys.disk w) path with
  | .error fault => (profileFailure fault, w)
  | .ok none =>
    (.failure ("not registered: no session profile at " ++ path.text ++
      "; run `veil-client enroll` first"), w)
  | .ok (some profile) =>
    match profile.validate with
    | .error fault => (.failure fault.message, w)
    | .ok () =>
      match Session.create profile config.client with
      | .error fault => (sessionFailure fault, w)
      | .ok session => runSession sys config session w

/-- The configuration's file. -/
def configFile (env : Environment) (call : Call) : Path :=
  call.config.getD (Config.defaultPath env)

/-- Does what a call asks for. -/
def perform (sys : System ω) (env : Environment) (fresh : Key) (call : Call) (w : ω) :
    Outcome × ω :=
  let file := configFile env call
  match Config.loadIfPresent (sys.disk w) env file with
  | .error fault => (.failure ("loading " ++ file.text) (fault.message :: fault.causes), w)
  | .ok config =>
    let path := config.client.sessionPath env
    match call.action with
    | .keygen => (keygen fresh, w)
    | .enroll e => enroll sys path e fresh w
    | .forget => forget sys path w
    | .status => (status sys config path w, w)
    | .connect => connect sys config path w

/-- Runs the client with arguments, in an environment, with a key that nobody knows. -/
def run (sys : System ω) (env : Environment) (fresh : Key) (args : List String) (w : ω) :
    Outcome × ω :=
  match Call.read args with
  | none => ({ ending := .misused usage }, w)
  | some call => perform sys env fresh call w

end OverlayVpn.Cli.Client
