import OverlayVpn.Disk.Replace
import OverlayVpn.Json.Record
import OverlayVpn.Key
import OverlayVpn.Net.Socket
import OverlayVpn.Time.Rfc3339

set_option autoImplicit false

/-! # The client's profile

A client that has registered keeps a profile: its keys, the server's key and endpoint, and the
addresses inside the tunnel. The profile is kept in a JSON file for the owner's eyes alone. -/

namespace OverlayVpn

open Text

/-- All that a client needs to bring its tunnel up. -/
structure Profile where
  clientPrivateKey : String
  clientPublicKey : String
  serverPublicKey : String
  /-- `host:port`, or `:port` for a server on this machine. -/
  serverEndpoint : String
  /-- The client's address inside the tunnel. -/
  assignedAddress : String
  /-- The server's address inside the tunnel. -/
  serverTunnelAddress : Ipv4
  registeredAt : Timestamp
  deriving DecidableEq

namespace Profile

/-- A part of the profile that makes no sense. -/
inductive Invalid where
  | privateKey (fault : Key.Fault)
  | publicKey (fault : Key.Fault)
  /-- The public key is not that of the private key. -/
  | mismatch
  | serverKey (fault : Key.Fault)
  /-- The endpoint has no colon. -/
  | endpoint
  | port (port : String)
  | address (address : String)
  deriving DecidableEq, Repr

/-- What is said of a part that makes no sense. -/
def Invalid.message : Invalid → String
  | .privateKey fault => "invalid client private key: " ++ fault.message
  | .publicKey fault => "invalid client public key: " ++ fault.message
  | .mismatch => "invalid client public key: does not match the client private key"
  | .serverKey fault => "invalid server public key: " ++ fault.message
  | .endpoint => "invalid server endpoint: expected host:port"
  | .port text => "invalid server endpoint: bad port " ++ quoted text
  | .address text => "invalid assigned address: " ++ quoted text ++ " is not an IPv4 address"

/-- Why a profile cannot be had. -/
inductive Fault where
  | io (path : Path) (error : OsError)
  /-- The file is there, but holds no profile. -/
  | unreadable (path : Path) (fault : Json.Fault)
  deriving DecidableEq

/-- What is said of a fault. -/
def Fault.message : Fault → String
  | .io path error => s!"failed to access session file {path.text}: {error.message}"
  | .unreadable path _ => s!"session file {path.text} is not valid"

/-! ## In a file -/

/-- The server's address inside the tunnel when the profile leaves it out. -/
def defaultTunnelAddress : Ipv4 := .ofOctets 10 0 0 1

/-- The profile's members in a file. -/
def fields : List Json.Field :=
  [{ names := ["clientPrivateKey"] }, { names := ["clientPublicKey"] },
    { names := ["serverPublicKey"] }, { names := ["serverEndpoint"] },
    { names := ["clientIP", "assignedAddress"] },
    { names := ["serverTunnelAddress"], accepts := fun s => (Ipv4.read? s).isSome,
      default := some defaultTunnelAddress.text },
    { names := ["registeredAt"], accepts := fun s => (Timestamp.read? s).isSome }]

/-- The profile as a file holds it. -/
def toJson (p : Profile) : Json :=
  .ofMembers [("clientPrivateKey", .string p.clientPrivateKey),
    ("clientPublicKey", .string p.clientPublicKey),
    ("serverPublicKey", .string p.serverPublicKey),
    ("serverEndpoint", .string p.serverEndpoint), ("clientIP", .string p.assignedAddress),
    ("serverTunnelAddress", .string p.serverTunnelAddress.text),
    ("registeredAt", .string p.registeredAt.text)]

/-- The profile of the texts of its members. -/
def ofTexts : List String → Except Json.Fault Profile
  | [clientPrivateKey, clientPublicKey, serverPublicKey, serverEndpoint, assignedAddress,
      ownNetwork, registeredAt] =>
    match Ipv4.read? ownNetwork, Timestamp.read? registeredAt with
    | some serverTunnelAddress, some registeredAt =>
      .ok { clientPrivateKey, clientPublicKey, serverPublicKey, serverEndpoint, assignedAddress,
            serverTunnelAddress, registeredAt }
    | _, _ => .error .shape
  | _ => .error .shape

/-- The profile that a file holds. -/
def ofJson (j : Json) : Except Json.Fault Profile := Json.readRecord fields j >>= ofTexts

/-- The profile that bytes hold. -/
def read (bytes : List UInt8) : Except Json.Fault Profile := Json.readDocument ofJson bytes

/-- The bytes of the file that holds the profile. -/
def contents (p : Profile) : List UInt8 := Utf8.encodeChars (Json.chars 0 p.toJson)

/-- The profile at a path; `none` means that the client has not registered. -/
def load (disk : Disk) (path : Path) : Except Fault (Option Profile) :=
  match disk.read path with
  | .error .noEntry => .ok none
  | .error e => .error (.io path e)
  | .ok bytes =>
    match read bytes with
    | .ok profile => .ok (some profile)
    | .error fault => .error (.unreadable path fault)

/-- Writes the profile to a path. -/
def save (p : Profile) (disk : Disk) (path : Path) : Except Fault Unit × Disk :=
  match disk.replace path p.contents with
  | (.ok (), disk) => (.ok (), disk)
  | (.error e, disk) => (.error (.io path e), disk)

/-- Removes the profile at a path; says whether there was one. -/
def delete (disk : Disk) (path : Path) : Except Fault Bool × Disk :=
  match disk.delete path with
  | (.ok found, disk) => (.ok found, disk)
  | (.error e, disk) => (.error (.io path e), disk)

/-- What is shown of a profile; the private key is not. -/
def shown (p : Profile) : String :=
  "ClientSessionConfig \x7b client_private_key: \"[REDACTED]\", client_public_key: " ++
    quoted p.clientPublicKey ++ ", server_public_key: " ++ quoted p.serverPublicKey ++
    ", server_endpoint: " ++ quoted p.serverEndpoint ++ ", assigned_address: " ++
    quoted p.assignedAddress ++ ", server_tunnel_address: " ++ p.serverTunnelAddress.text ++
    ", registered_at: " ++ p.registeredAt.text ++ " \x7d"

/-! ## Endpoint and address -/

/-- The host of an endpoint that names none. -/
def ownHost : String := "127.0.0.1"

/-- The host and the port of an endpoint. The brackets around the host do not count. -/
def splitEndpoint (endpoint : String) : Except Invalid (String × UInt16) :=
  match Socket.cutLastColon endpoint.toList with
  | none => .error .endpoint
  | some (host, port) =>
    match (Decimal.natural? 65536 port).filter (· ≠ 0) with
    | none => .error (.port (String.ofList port))
    | some n =>
      let host := dropEndWhile (· == ']') (host.dropWhile (· == '['))
      .ok (if host.isEmpty then ownHost else String.ofList host, UInt16.ofNat n)

/-- The endpoint with an explicit host; a host that holds a colon stands in brackets. -/
def targetText (host : String) (port : UInt16) : String :=
  let port := Decimal.render port.toNat
  if host.toList.contains ':' then "[" ++ host ++ "]:" ++ port else host ++ ":" ++ port

/-- The endpoint with an explicit host, ready to be resolved. -/
def explicitEndpoint (p : Profile) : Except Invalid String :=
  (splitEndpoint p.serverEndpoint).map fun (host, port) => targetText host port

/-- The endpoint's host. -/
def serverHost (p : Profile) : Except Invalid String :=
  (splitEndpoint p.serverEndpoint).map (·.1)

/-- The client's address as a network; an address alone is a network of its own. -/
def ownNetwork (p : Profile) : Except Invalid Network :=
  match Network.read? p.assignedAddress with
  | some network => .ok network
  | none =>
    match Ipv4.read? p.assignedAddress with
    | some address => .ok (.host address)
    | none => .error (.address p.assignedAddress)

/-- Checks keys, endpoint and address. -/
def validate (p : Profile) : Except Invalid Unit := do
  let key ← (Key.read p.clientPrivateKey).mapError .privateKey
  let _ ← (Key.read p.clientPublicKey).mapError .publicKey
  if key.publicKey.text ≠ p.clientPublicKey then throw .mismatch
  let _ ← (Key.read p.serverPublicKey).mapError .serverKey
  let _ ← splitEndpoint p.serverEndpoint
  let _ ← p.ownNetwork
  return ()

end Profile

end OverlayVpn
