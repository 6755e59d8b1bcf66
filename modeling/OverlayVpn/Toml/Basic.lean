set_option autoImplicit false

/-! # TOML values

The value of a document is a tree of tables. Numbers with a fraction and dates are accepted in
documents, but nothing is made of them. -/

namespace OverlayVpn

/-- How a table came to be. -/
inductive TableForm where
  /-- Under a header of its own. -/
  | header
  /-- On the way to the header of a table inside it. -/
  | passed
  /-- By a key with dots. -/
  | dotted
  /-- Between braces. -/
  | inBraces
  deriving DecidableEq, Repr

/-- A TOML value. -/
inductive Toml where
  | string (value : String)
  | integer (value : Int)
  | float
  | boolean (value : Bool)
  | dateTime
  | array (items : List Toml)
  /-- The tables under headers in double brackets, in order. -/
  | tables (items : List Toml)
  | table (form : TableForm) (entries : List (String × Toml))
  deriving Inhabited

namespace Toml

/-- The entries of a table. -/
abbrev Entries := List (String × Toml)

/-- The entries with another value for a key that has one. -/
def Entries.replace (entries : Entries) (key : String) (value : Toml) : Entries :=
  entries.map fun e => if e.1 == key then (key, value) else e

/-- How far values may be nested. -/
def maxDepth : Nat := 79

/-! ## Building a document

Statements are applied to the tree in turn. A table has one header at most, and only keys with
dots extend a table that came to be by such a key. -/

/-- A table under construction. -/
abbrev Draft := TableForm × Entries

/-- Changes the table that a path leads to, making the tables on the way that are missing. Keys
with dots do not lead through tables that have a header. -/
def within (dotted : Bool) (f : Draft → Option Draft) : List String → Draft → Option Draft
  | [], draft => f draft
  | key :: path, (form, entries) =>
    let goOn (child : Draft) : Option Toml := do
      let (form, entries) ← within dotted f path child
      return .table form entries
    match entries.lookup key with
    | none => do
      let child ← goOn (if dotted then .dotted else .passed, [])
      return (form, entries ++ [(key, child)])
    | some (.table childForm children) => do
      if childForm == .inBraces || (dotted && childForm == .header) then none
      let child ← goOn (childForm, children)
      return (form, entries.replace key child)
    | some (.tables items) =>
      match items.getLast? with
      | some (.table childForm children) => do
        let child ← goOn (childForm, children)
        return (form, entries.replace key (.tables (items.dropLast ++ [child])))
      | _ => none
    | some _ => none

/-- Cuts off the last key of a path. -/
def cutLast (path : List String) : Option (List String × String) :=
  path.getLast?.map (path.dropLast, ·)

/-- The table with a value put at a path. -/
def putAt (path : List String) (value : Toml) (draft : Draft) : Option Draft := do
  let (front, key) ← cutLast path
  within true (fun (form, entries) => do
    if (form == .dotted) == front.isEmpty then none
    if (entries.lookup key).isSome then none
    return (form, entries ++ [(key, value)])) front draft

/-- The table with a header `[path]` seen. -/
def openTable (path : List String) (draft : Draft) : Option Draft := do
  let (front, key) ← cutLast path
  within false (fun (form, entries) =>
    match entries.lookup key with
    | none => some (form, entries ++ [(key, .table .header [])])
    | some (.table .passed children) =>
      some (form, entries.filter (·.1 != key) ++ [(key, .table .header children)])
    | some _ => none) front draft

/-- The table with a header `[[path]]` seen. -/
def openItem (path : List String) (draft : Draft) : Option Draft := do
  let (front, key) ← cutLast path
  within false (fun (form, entries) =>
    match entries.lookup key with
    | none => some (form, entries ++ [(key, .tables [.table .header []])])
    | some (.tables items) =>
      some (form, entries.replace key (.tables (items ++ [.table .header []])))
    | some _ => none) front draft

/-- A statement of a document. -/
inductive Statement where
  | assign (path : List String) (value : Toml)
  | table (path : List String)
  | item (path : List String)

/-- A document under construction: the path of the header seen last, and the whole tree. -/
abbrev Document := List String × Draft

/-- The document after a statement. -/
def Document.add (document : Document) (statement : Statement) : Option Document :=
  let (current, root) := document
  match statement with
  | .assign path value => do
    let root ← within false (putAt path value) current root
    return (current, root)
  | .table path => (openTable path root).map (path, ·)
  | .item path => (openItem path root).map (path, ·)

/-- The entries of the document that statements make. -/
def ofStatements (statements : List Statement) : Option Entries := do
  let (_, _, entries) ← statements.foldlM Document.add ([], .header, [])
  return entries

end Toml

end OverlayVpn
