import OverlayVpn.Disk.Basic
import OverlayVpn.Time.Timestamp

set_option autoImplicit false

/-! # Replacing a file

A file that holds state is never written in place: its new contents go into a sibling, which is
made private and then renamed over the file, so that a reader finds the old contents or the new
ones. The steps are data, so that a run can be stopped after any of them. -/

namespace OverlayVpn

namespace Disk

/-- A step that changes a disk. -/
inductive Effect where
  /-- Makes a directory for the owner alone, with those that lead to it, unless it is there. -/
  | ensureDirectory (dir : Path)
  /-- Makes an empty file for the owner alone; one that is there keeps its permissions. -/
  | openTruncated (file : Path)
  /-- Adds to the end of a file. -/
  | write (file : Path) (bytes : List UInt8)
  /-- Waits until a file's contents have reached the device. -/
  | sync (file : Path)
  /-- Lets the owner alone read and write a file. -/
  | makePrivate (file : Path)
  | rename (source target : Path)
  | remove (file : Path)
  deriving DecidableEq, Repr

/-- The permissions of files that hold state. -/
def privateMode : Nat := 0o600

/-- The permissions of directories made for such files. -/
def directoryMode : Nat := 0o700

/-- What a step does when nothing fails beyond its own conditions. -/
def Effect.apply (d : Disk) : Effect → Except OsError Disk
  | .ensureDirectory dir =>
    match d.find dir with
    | .ok _ => .ok d
    | .error .noEntry => d.makeDirectories directoryMode (d.start dir) dir.names
    | .error e => .error e
  | .openTruncated file => d.truncated privateMode file
  | .write file bytes => d.appended bytes file
  | .sync _ => .ok d
  | .makePrivate file => d.permitted privateMode file
  | .rename source target => d.renamed source target
  | .remove file => d.removed file

/-- What is left of a step that fails after `written` bytes. -/
def Effect.part (written : Nat) : Effect → Option Effect
  | .write file bytes => some (.write file (bytes.take written))
  | _ => none

/-- Performs a step, or fails with the next failure in store. It is assumed of the system that a
write which fails is reported, by the step that writes or at the latest by the step that waits for
the device: steps that all succeed have put the whole contents into the file. -/
def perform (d : Disk) (e : Effect) : Except OsError Unit × Disk :=
  let rest := { d with failures := d.failures.tail }
  match d.failures.head?.join with
  | some failure =>
    let left := (e.part failure.written).bind fun part => (part.apply rest).toOption
    (.error failure.error, left.getD rest)
  | none =>
    match e.apply rest with
    | .ok d => (.ok (), d)
    | .error e => (.error e, rest)

/-- Performs steps up to the first that fails. -/
def performAll (d : Disk) : List Effect → Except OsError Unit × Disk
  | [] => (.ok (), d)
  | e :: rest =>
    match d.perform e with
    | (.ok (), d) => performAll d rest
    | failed => failed

/-- The steps that make the directory of a file. -/
def directorySteps (file : Path) : List Effect :=
  match file.parent? with
  | some parent => if parent.isEmpty then [] else [.ensureDirectory parent]
  | none => []

/-- The steps that put new contents into a file's place. -/
def contentSteps (file : Path) (contents : List UInt8) : List Effect :=
  let temp := file.tempSibling
  [.openTruncated temp, .write temp contents, .sync temp, .makePrivate temp, .rename temp file]

/-- Replaces a file; when that fails the sibling is removed again. -/
def replace (d : Disk) (file : Path) (contents : List UInt8) : Except OsError Unit × Disk :=
  -- there is no sibling yet that a failure of these steps could leave
  match d.performAll (directorySteps file) with
  | (.error e, d) => (.error e, d)
  | (.ok (), d) =>
    match d.performAll (contentSteps file contents) with
    | (.ok (), d) => (.ok (), d)
    | (.error e, d) => (.error e, (d.perform (.remove file.tempSibling)).2)

/-- Removes the sibling that an interrupted replacement left behind; says whether there was one,
be it that it could not be removed. -/
def discardTemp (d : Disk) (file : Path) : Bool × Disk :=
  match d.perform (.remove file.tempSibling) with
  | (.ok (), d) => (true, d)
  | (.error .noEntry, d) => (false, d)
  | (.error _, d) => (true, d)

/-- Removes a file; says whether there was one. -/
def delete (d : Disk) (file : Path) : Except OsError Bool × Disk :=
  match d.perform (.remove file) with
  | (.ok (), d) => (.ok true, d)
  | (.error .noEntry, d) => (.ok false, d)
  | (.error e, d) => (.error e, d)

end Disk

/-- The machine that state is kept on: its disk and its clock. -/
structure Host where
  disk : Disk := {}
  clock : Clock

end OverlayVpn
