import OverlayVpn.Disk.Replace
import OverlayVpn.Json.Record
import OverlayVpn.Time.Rfc3339

set_option autoImplicit false

/-! # The registry of peers

The registry knows every registered peer: its public key, its address and when it registered.
It is kept in memory and in one JSON file, which is replaced as a whole on every change; memory
changes only after the file has. -/

namespace OverlayVpn

/-- One registered peer. -/
structure RegisteredPeer where
  publicKey : String
  /-- Its address with a network's length, normally `/32`. -/
  allowedAddress : String
  registeredAt : Timestamp
  deriving DecidableEq

namespace RegisteredPeer

/-- The record's members in a file. -/
def fields : List Json.Field :=
  [{ names := ["publicKey"] }, { names := ["allowedIPs"] },
    { names := ["registeredAt"], accepts := fun s => (Timestamp.read? s).isSome }]

/-- The record as a file holds it. -/
def toJson (r : RegisteredPeer) : Json :=
  .ofMembers [("publicKey", .string r.publicKey), ("allowedIPs", .string r.allowedAddress),
    ("registeredAt", .string r.registeredAt.text)]

/-- The record of the texts of its members. -/
def ofTexts : List String → Except Json.Fault RegisteredPeer
  | [publicKey, allowedAddress, registeredAt] =>
    match Timestamp.read? registeredAt with
    | some registeredAt => .ok { publicKey, allowedAddress, registeredAt }
    | none => .error .shape
  | _ => .error .shape

/-- The record that a file holds. -/
def ofJson (j : Json) : Except Json.Fault RegisteredPeer := Json.readRecord fields j >>= ofTexts

end RegisteredPeer

/-- The registered peers and the file they are kept in. -/
structure Registry where
  path : Path
  peers : KeyMap RegisteredPeer := ∅
  deriving DecidableEq

namespace Registry

/-- Why the registry refuses. -/
inductive Fault where
  | io (path : Path) (error : OsError)
  /-- The file is there, but holds no registry. -/
  | corrupt (path : Path) (fault : Json.Fault)
  | notFound (key : String)
  /-- The key is registered with another address. -/
  | conflict (key existing : String)
  deriving DecidableEq

/-- What is said of a fault. -/
def Fault.message : Fault → String
  | .io path error => s!"registry I/O error on {path.text}: {error.message}"
  | .corrupt path _ => s!"registry file {path.text} is corrupt"
  | .notFound key => s!"peer {key} is not registered"
  | .conflict key existing => s!"peer {key} is already registered with {existing}"

/-- The peers as a file holds them. -/
def document (peers : KeyMap RegisteredPeer) : Json :=
  .ofMembers (peers.entries.map fun (key, record) => (key, record.toJson))

/-- The bytes of the file that holds the peers. -/
def contents (peers : KeyMap RegisteredPeer) : List UInt8 :=
  Text.Utf8.encodeChars (Json.chars 0 (document peers))

/-- Whether a byte is an ASCII blank. -/
def isSpace (b : UInt8) : Bool := b == 32 || b == 9 || b == 10 || b == 12 || b == 13

/-- The peers that a file holds; a file without contents holds none. -/
def read (bytes : List UInt8) : Except Json.Fault (KeyMap RegisteredPeer) :=
  if bytes.all isSpace then .ok ∅ else Json.readDocument (Json.readMap RegisteredPeer.ofJson) bytes

/-- The registry that is kept at a path, none where there is no file. -/
def load (disk : Disk) (path : Path) : Except Fault Registry :=
  match disk.read path with
  | .error .noEntry => .ok { path }
  | .error e => .error (.io path e)
  | .ok bytes =>
    match read bytes with
    | .ok peers => .ok { path, peers }
    | .error fault => .error (.corrupt path fault)

/-- Opens the registry at a path, after what an interrupted change has left is cleared away. -/
def openAt (disk : Disk) (path : Path) : Except Fault Registry × Disk :=
  let (_, disk) := disk.discardTemp path
  (load disk path, disk)

/-- Makes `peers` the peers of the registry, in the file first. -/
def commit (r : Registry) (disk : Disk) (peers : KeyMap RegisteredPeer) :
    Except Fault Registry × Disk :=
  match disk.replace r.path (contents peers) with
  | (.ok (), disk) => (.ok { r with peers }, disk)
  | (.error e, disk) => (.error (.io r.path e), disk)

/-- The record of a key. -/
def get (r : Registry) (key : String) : Except Fault RegisteredPeer :=
  match r.peers.get? key with
  | some record => .ok record
  | none => .error (.notFound key)

/-- The addresses of all peers. -/
def addresses (r : Registry) : List String := r.peers.values.map (·.allowedAddress)

/-- Registers a peer. The same key with the same address is a peer that is known already. -/
def add (r : Registry) (host : Host) (key address : String) :
    Except Fault RegisteredPeer × Registry × Host :=
  match r.peers.get? key with
  | some existing =>
    if existing.allowedAddress = address then (.ok existing, r, host)
    else (.error (.conflict key existing.allowedAddress), r, host)
  | none =>
    -- the clock is read before the file is written
    let (now, clock) := host.clock.read
    let record : RegisteredPeer := ⟨key, address, now⟩
    match r.commit host.disk (r.peers.insert key record) with
    | (.ok r, disk) => (.ok record, r, { disk, clock })
    | (.error fault, disk) => (.error fault, r, { disk, clock })

/-- Removes a peer and gives its record, if it was registered. -/
def remove (r : Registry) (host : Host) (key : String) :
    Except Fault (Option RegisteredPeer) × Registry × Host :=
  match r.peers.get? key with
  | none => (.ok none, r, host)
  | some record =>
    match r.commit host.disk (r.peers.erase key) with
    | (.ok r, disk) => (.ok (some record), r, { host with disk })
    | (.error fault, disk) => (.error fault, r, { host with disk })

end Registry

end OverlayVpn
