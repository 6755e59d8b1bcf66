import OverlayVpn.Text.Blank

set_option autoImplicit false

/-! # Paths

A path is the list of the texts between its slashes, so that `/` is two empty segments and the
empty path is one. Segments that are empty or `.` name nothing; they are kept where they stand,
but a path's file name and its parent look past those at its end. -/

namespace OverlayVpn

/-- A path, as the texts between its slashes. -/
structure Path where
  segments : List String
  deriving DecidableEq, Repr

namespace Path

/-- The path that a text spells. -/
def ofText (s : String) : Path := ⟨Text.splitOn '/' s⟩

/-- The path as text. -/
def text (p : Path) : String := Text.join "/" p.segments

/-- Whether a segment names nothing. -/
def redundant (segment : String) : Bool := segment == "" || segment == "."

/-- Segments without the redundant ones at their end. -/
def strip (segments : List String) : List String := Text.dropEndWhile redundant segments

/-- Whether the path starts at the root. -/
def isAbsolute (p : Path) : Bool :=
  match p.segments with
  | "" :: _ :: _ => true
  | _ => false

/-- Whether the path is the empty text. -/
def isEmpty (p : Path) : Bool := p.segments == [""] || p.segments == []

/-- The segments that name something. -/
def names (p : Path) : List String := p.segments.filter (! redundant ·)

/-- Whether the path can only name a directory. -/
def namesDirectory (p : Path) : Bool :=
  match p.segments.getLast? with
  | some last => redundant last || last == ".."
  | none => true

/-- The path of `name` inside the directory `p`. -/
def push (p : Path) (name : String) : Path :=
  if p.segments.getLast? == some "" then ⟨p.segments.dropLast ++ [name]⟩
  else ⟨p.segments ++ [name]⟩

/-- The path of `q` seen from the directory `p`; an absolute `q` stands for itself. -/
def append (p q : Path) : Path :=
  if q.isAbsolute then q
  else match q.segments with
    | [] => p
    | first :: rest => ⟨(p.push first).segments ++ rest⟩

/-- The name of the file that the path ends in; `..` and the root name none. -/
def fileName? (p : Path) : Option String :=
  match p.segments with
  | [] => none
  | first :: rest =>
    match (strip rest).getLast? with
    | some name => if name == ".." then none else some name
    | none => if redundant first || first == ".." then none else some first

/-- The directory that holds what the path names; the root and the empty path are in none. -/
def parent? (p : Path) : Option Path :=
  match p.segments with
  | [] => none
  | first :: rest =>
    match strip rest with
    | [] => if first == "" then none else some ⟨[""]⟩
    | body =>
      let front := strip body.dropLast
      some ⟨if front.isEmpty && first == "" then ["", ""] else first :: front⟩

/-- The path with another file name; a path without one gets the name as a further segment. -/
def withFileName (p : Path) (name : String) : Path :=
  match p.fileName? with
  | some _ => (p.parent?.getD ⟨[""]⟩).push name
  | none => p.push name

/-- The sibling in which the new contents of a file are prepared. -/
def tempSibling (p : Path) : Path := p.withFileName (p.fileName?.getD "state" ++ ".tmp")

end Path

end OverlayVpn
