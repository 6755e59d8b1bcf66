import OverlayVpn.Disk.Replace

set_option autoImplicit false

/-! # Disks apart from what their files hold

The shape of a disk is the disk with all its files emptied. Where a path leads and whether an
operation fails can be told from the shape, so that two disks of one shape come through the
replacement of a file alike, whatever is written (`replace_alike`). -/

namespace OverlayVpn

/-- What is found at a place, a file without what it holds. -/
def Node.shape : Node → Node
  | file _ mode => file [] mode
  | directory mode => directory mode

namespace Disk

/-- The disk with all its files emptied. -/
def shape (d : Disk) : Disk := { d with nodes := d.nodes.map fun entry => (entry.1, entry.2.shape) }

/-- The step that writes nothing where the given one writes something. -/
def Effect.shape : Effect → Effect
  | write file _ => write file []
  | e => e

/-! ## Operations -/

variable (d : Disk)

theorem node?_shape (place : Place) : d.shape.node? place = (d.node? place).map Node.shape := by
  have hlookup (nodes : List (Place × Node)) :
      (nodes.map fun entry => (entry.1, entry.2.shape)).lookup place =
        (nodes.lookup place).map Node.shape := by
    induction nodes with
    | nil => rfl
    | cons entry nodes ih =>
        rw [List.map_cons, List.lookup_cons, List.lookup_cons]
        split
        · rfl
        · exact ih
  unfold node?
  split
  · rfl
  · exact hlookup d.nodes

theorem shape_drop (place : Place) : (d.drop place).shape = d.shape.drop place := by
  simp only [shape, drop, List.filter_map]
  rfl

theorem shape_put (place : Place) (node : Node) :
    (d.put place node).shape = d.shape.put place node.shape := by
  simp only [shape, put, List.filter_map, List.map_cons]
  rfl

theorem follow_shape (place : Place) (names : List String) :
    d.shape.follow place names = d.follow place names := by
  induction names generalizing place with
  | nil => rfl
  | cons name names ih =>
      simp only [follow, node?_shape]
      cases d.node? place with
      | none => rfl
      | some node =>
          cases node with
          | file contents mode => rfl
          | directory mode => exact ih _

theorem resolve_shape (p : Path) : d.shape.resolve p = d.resolve p := by
  have hstart : d.shape.start p = d.start p := rfl
  simp only [resolve, hstart, follow_shape, node?_shape]
  cases d.follow (d.start p) p.names with
  | error e => rfl
  | ok place =>
      cases hnode : d.node? place with
      | none => simp only [bind, Except.bind, hnode, Option.map_none]
      | some node =>
          cases node <;> simp only [bind, Except.bind, hnode, Option.map_some, Node.shape]

theorem find_shape (p : Path) :
    d.shape.find p = (d.find p).map fun found => (found.1, found.2.shape) := by
  simp only [find, resolve_shape, node?_shape]
  cases d.resolve p with
  | error e => rfl
  | ok place => cases hnode : d.node? place <;> simp only [bind, Except.bind, hnode] <;> rfl

theorem makeDirectories_shape (mode : Nat) (place : Place) (names : List String) :
    d.shape.makeDirectories mode place names =
      (d.makeDirectories mode place names).map shape := by
  induction names generalizing d place with
  | nil => rfl
  | cons name names ih =>
      simp only [makeDirectories, node?_shape]
      generalize (if name = ".." then place.dropLast else place ++ [name]) = next
      cases d.node? next with
      | none =>
          rw [← ih, shape_put]
          rfl
      | some node =>
          cases node with
          | file contents mode => rfl
          | directory mode => exact ih d next

theorem truncated_shape (mode : Nat) (p : Path) :
    d.shape.truncated mode p = (d.truncated mode p).map shape := by
  simp only [truncated, resolve_shape, node?_shape]
  cases d.resolve p with
  | error e => rfl
  | ok place =>
      simp only [bind, Except.bind]
      cases d.node? place with
      | some node =>
          cases node with
          | file contents old => exact congrArg Except.ok (shape_put d place (.file [] old)).symm
          | directory mode => rfl
      | none =>
          simp only [Option.map_none]
          split
          · rfl
          · cases d.node? place.dropLast with
            | none => rfl
            | some node =>
                cases node with
                | file contents old => rfl
                | directory old => exact congrArg Except.ok (shape_put d place (.file [] mode)).symm

theorem appended_shape (bytes : List UInt8) (p : Path) :
    d.shape.appended [] p = (d.appended bytes p).map shape := by
  simp only [appended, find_shape]
  cases d.find p with
  | error e => rfl
  | ok found =>
      obtain ⟨place, node⟩ := found
      cases node with
      | file contents mode =>
          exact congrArg Except.ok (shape_put d place (.file (contents ++ bytes) mode)).symm
      | directory mode => rfl

theorem permitted_shape (mode : Nat) (p : Path) :
    d.shape.permitted mode p = (d.permitted mode p).map shape := by
  simp only [permitted, find_shape]
  cases d.find p with
  | error e => rfl
  | ok found =>
      obtain ⟨place, node⟩ := found
      cases node with
      | file contents old =>
          exact congrArg Except.ok (shape_put d place (.file contents mode)).symm
      | directory old => exact congrArg Except.ok (shape_put d place (.directory mode)).symm

theorem renamed_shape (source target : Path) :
    d.shape.renamed source target = (d.renamed source target).map shape := by
  simp only [renamed, find_shape, resolve_shape, node?_shape]
  cases d.find source with
  | error e => rfl
  | ok found =>
      obtain ⟨place, node⟩ := found
      simp only [bind, Except.bind, Except.map]
      cases d.resolve target with
      | error e => rfl
      | ok place' =>
          have hmoved : ((d.drop place).put place' node).shape =
              (d.shape.drop place).put place' node.shape := by
            rw [shape_put, shape_drop]
          simp only
          cases d.node? place' with
          | none =>
              simp only [Option.map_none]
              split
              · rfl
              · exact congrArg Except.ok hmoved.symm
          | some other =>
              cases other with
              | directory mode => rfl
              | file contents mode =>
                  simp only [Option.map_some, Node.shape]
                  split
                  · rfl
                  · exact congrArg Except.ok hmoved.symm

theorem removed_shape (p : Path) : d.shape.removed p = (d.removed p).map shape := by
  simp only [removed, find_shape]
  cases d.find p with
  | error e => rfl
  | ok found =>
      obtain ⟨place, node⟩ := found
      cases node with
      | file contents mode => exact congrArg Except.ok (shape_drop d place).symm
      | directory mode => rfl

/-! ## Steps -/

/-- **A step does the same to the shape**: it fails when it would fail, and leaves the shape of what
it would leave. -/
theorem apply_shape (e : Effect) : e.shape.apply d.shape = (e.apply d).map shape := by
  cases e with
  | ensureDirectory dir =>
      simp only [Effect.shape, Effect.apply, find_shape]
      cases d.find dir with
      | ok found => rfl
      | error fault =>
          cases fault with
          | noEntry => exact makeDirectories_shape d _ _ _
          | _ => rfl
  | openTruncated file => exact truncated_shape d _ file
  | write file bytes => exact appended_shape d bytes file
  | sync file => rfl
  | makePrivate file => exact permitted_shape d _ file
  | rename source target => exact renamed_shape d source target
  | remove file => exact removed_shape d file

theorem part_shape (written : Nat) (e : Effect) :
    e.shape.part written = (e.part written).map Effect.shape := by
  cases e with
  | write file bytes => simp only [Effect.shape, Effect.part, List.take_nil, Option.map_some]
  | _ => rfl

theorem perform_shape (e : Effect) :
    d.shape.perform e.shape = ((d.perform e).1, (d.perform e).2.shape) := by
  have hrest : ({ d with failures := d.failures.tail } : Disk).shape =
      { d.shape with failures := d.failures.tail } := rfl
  have hfailures : d.shape.failures = d.failures := rfl
  simp only [perform, hfailures, ← hrest]
  generalize ({ d with failures := d.failures.tail } : Disk) = rest
  cases d.failures.head?.join with
  | none =>
      simp only [apply_shape]
      cases e.apply rest <;> rfl
  | some failure =>
      simp only [part_shape]
      cases e.part failure.written with
      | none => rfl
      | some part =>
          simp only [Option.map_some, Option.bind_some, apply_shape]
          cases part.apply rest <;> rfl

theorem performAll_shape (effects : List Effect) :
    d.shape.performAll (effects.map Effect.shape) =
      ((d.performAll effects).1, (d.performAll effects).2.shape) := by
  induction effects generalizing d with
  | nil => rfl
  | cons e effects ih =>
      simp only [List.map_cons, performAll, perform_shape]
      cases hstep : d.perform e with
      | mk result after =>
          cases result with
          | ok u => exact ih after
          | error fault => rfl

/-! ## Replacing a file -/

theorem replace_shape (file : Path) (contents : List UInt8) :
    d.shape.replace file [] =
      ((d.replace file contents).1, (d.replace file contents).2.shape) := by
  have hdirectory : (directorySteps file).map Effect.shape = directorySteps file := by
    unfold directorySteps
    cases file.parent? with
    | none => rfl
    | some parent => cases hempty : parent.isEmpty <;> simp [hempty, Effect.shape]
  have hcontent : (contentSteps file contents).map Effect.shape = contentSteps file [] := rfl
  simp only [replace, ← hcontent]
  rw [← hdirectory, performAll_shape, hdirectory]
  cases hmade : d.performAll (directorySteps file) with
  | mk result after =>
      cases result with
      | error fault => rfl
      | ok u =>
          simp only [performAll_shape]
          cases hwritten : after.performAll (contentSteps file contents) with
          | mk result' after' =>
              cases result' with
              | ok u => rfl
              | error fault =>
                  have hremoved := perform_shape after' (.remove file.tempSibling)
                  exact congrArg (Except.error fault, ·) (congrArg Prod.snd hremoved)

variable {d} {d' : Disk}

/-- **Disks of one shape come through the replacement of a file alike**, whatever is written. -/
theorem replace_alike (h : d.shape = d'.shape) (file : Path) (contents contents' : List UInt8) :
    (d.replace file contents).1 = (d'.replace file contents').1 ∧
      (d.replace file contents).2.shape = (d'.replace file contents').2.shape := by
  have hreplaced := replace_shape d file contents
  rw [h, replace_shape d' file contents'] at hreplaced
  exact ⟨(congrArg Prod.fst hreplaced).symm, (congrArg Prod.snd hreplaced).symm⟩

end Disk

end OverlayVpn
