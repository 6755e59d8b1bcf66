import OverlayVpn.Disk.OsError
import OverlayVpn.Path

set_option autoImplicit false

/-! # The file system

A disk holds files and directories by their place, the list of the names that lead to it from
the root. Its operations follow a path name by name and fail as the operating system does. A disk
may also be told to fail: each operation that would change it takes one entry off the list of
failures to come, and an empty list means that none is in store. -/

namespace OverlayVpn

/-- The names that lead from the root to a file or directory. -/
abbrev Place := List String

/-- What is found at a place. -/
inductive Node where
  | file (contents : List UInt8) (mode : Nat)
  | directory (mode : Nat)
  deriving DecidableEq, Repr

/-- The permission bits. -/
def Node.mode : Node → Nat
  | file _ mode => mode
  | directory mode => mode

/-- The failure of an operation. -/
structure DiskFailure where
  error : OsError
  /-- How many bytes are still written when the operation writes some. -/
  written : Nat := 0
  deriving DecidableEq, Repr

/-- A file system. -/
structure Disk where
  nodes : List (Place × Node) := []
  /-- Where relative paths start. -/
  workingDirectory : Place := []
  /-- The failures to come, one entry an operation. -/
  failures : List (Option DiskFailure) := []
  deriving DecidableEq, Repr

namespace Disk

/-- What is found at a place; the root is always a directory. -/
def node? (d : Disk) (place : Place) : Option Node :=
  if place = [] then some (.directory 0o755) else d.nodes.lookup place

/-- The disk with `node` at a place. -/
def put (d : Disk) (place : Place) (node : Node) : Disk :=
  { d with nodes := (place, node) :: d.nodes.filter (·.1 != place) }

/-- The disk with nothing at a place. -/
def drop (d : Disk) (place : Place) : Disk :=
  { d with nodes := d.nodes.filter (·.1 != place) }

/-- The place that a path leads to from `place`, through directories that exist. -/
def follow (d : Disk) : Place → List String → Except OsError Place
  | place, [] => .ok place
  | place, name :: rest =>
    match d.node? place with
    | none => .error .noEntry
    | some (.file ..) => .error .notDirectory
    | some (.directory _) => follow d (if name = ".." then place.dropLast else place ++ [name]) rest

/-- Where a path starts. -/
def start (d : Disk) (p : Path) : Place := if p.isAbsolute then [] else d.workingDirectory

/-- The place that a path leads to. -/
def resolve (d : Disk) (p : Path) : Except OsError Place := do
  if p.isEmpty then throw .noEntry
  let place ← d.follow (d.start p) p.names
  match d.node? place with
  -- a trailing slash asks for a directory
  | some (.file ..) => if p.namesDirectory then throw .notDirectory else return place
  | _ => return place

/-- What a path leads to. -/
def find (d : Disk) (p : Path) : Except OsError (Place × Node) := do
  let place ← d.resolve p
  match d.node? place with
  | some node => return (place, node)
  | none => throw .noEntry

/-- Whether a path leads to something; any error counts as no. -/
def pathExists (d : Disk) (p : Path) : Bool := (d.find p).toOption.isSome

/-- The contents of a file. -/
def read (d : Disk) (p : Path) : Except OsError (List UInt8) := do
  match ← d.find p with
  | (_, .file contents _) => return contents
  | (_, .directory _) => throw .isDirectory

/-- The names inside a directory. -/
def names (d : Disk) (place : Place) : List String :=
  d.nodes.filterMap fun (other, _) =>
    if other.dropLast = place then other.getLast? else none

/-- The disk with the directories on the way from `place` along `names`, the missing ones made
with permissions `mode`. -/
def makeDirectories (mode : Nat) : Disk → Place → List String → Except OsError Disk
  | d, _, [] => .ok d
  | d, place, name :: rest =>
    let place := if name = ".." then place.dropLast else place ++ [name]
    match d.node? place with
    | some (.directory _) => makeDirectories mode d place rest
    | some (.file ..) => .error (if rest.isEmpty then .fileExists else .notDirectory)
    | none => makeDirectories mode (d.put place (.directory mode)) place rest

/-- The disk with an empty file at a path; a file that is there keeps its permissions. -/
def truncated (mode : Nat) (d : Disk) (p : Path) : Except OsError Disk := do
  let place ← d.resolve p
  match d.node? place with
  | some (.directory _) => throw .isDirectory
  | some (.file _ old) => return d.put place (.file [] old)
  | none =>
    if p.namesDirectory then throw .isDirectory
    match d.node? place.dropLast with
    | some (.directory _) => return d.put place (.file [] mode)
    | some (.file ..) => throw .notDirectory
    | none => throw .noEntry

/-- The disk with bytes added to the end of a file. -/
def appended (bytes : List UInt8) (d : Disk) (p : Path) : Except OsError Disk := do
  match ← d.find p with
  | (place, .file contents mode) => return d.put place (.file (contents ++ bytes) mode)
  | (_, .directory _) => throw .isDirectory

/-- The disk with other permissions of a file or directory. -/
def permitted (mode : Nat) (d : Disk) (p : Path) : Except OsError Disk := do
  match ← d.find p with
  | (place, .file contents _) => return d.put place (.file contents mode)
  | (place, .directory _) => return d.put place (.directory mode)

/-- The disk with a file moved over another path. -/
def renamed (d : Disk) (source target : Path) : Except OsError Disk := do
  let (from', node) ← d.find source
  let to' ← d.resolve target
  match d.node? to' with
  | some (.directory _) => throw .isDirectory
  | _ =>
    -- a file does not take the place that a trailing slash keeps for a directory
    if target.namesDirectory then throw .notDirectory
    return (d.drop from').put to' node

/-- The disk without a file. -/
def removed (d : Disk) (p : Path) : Except OsError Disk := do
  match ← d.find p with
  | (place, .file ..) => return d.drop place
  | (_, .directory _) => throw .isDirectory

/-- The disk without what is at a path, a directory with all it holds. -/
def removedAll (d : Disk) (p : Path) : Disk :=
  match d.resolve p with
  | .ok place => { d with nodes := d.nodes.filter fun (other, _) => ! place.isPrefixOf other }
  | .error _ => d

/-- A new file with the usual permissions. -/
def write (d : Disk) (p : Path) (contents : List UInt8) : Except OsError Disk := do
  let d ← d.truncated 0o644 p
  d.appended contents p

/-- A directory with the usual permissions, and the directories that lead to it. -/
def makeAll (d : Disk) (p : Path) : Except OsError Disk :=
  d.makeDirectories 0o755 (d.start p) p.names

end Disk

end OverlayVpn
