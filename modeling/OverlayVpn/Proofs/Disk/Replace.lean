import OverlayVpn.Disk.Replace
import OverlayVpn.Proofs.Disk.Way

set_option autoImplicit false

/-! # What a replacement does to its file

A replacement works on the file's sibling until the last of its steps, which renames the sibling
over the file. If it succeeds the file can be read and holds the new contents (`read_replace`);
if it fails, wherever that is, the file's place is spared (`spares_replace`). More is left alone
than the place: all that the steps before the rename can do to a disk is said by `Prepares`, and a
replacement that fails does no more than that (`prepares_replace`). -/

namespace OverlayVpn

namespace Disk

/-! ## Single operations -/

/-- The permissions of a file once it is opened: its own, or those that a new file is given. -/
def modeOnOpening (d : Disk) (mode : Nat) (place : Place) : Nat :=
  match d.node? place with
  | some (.file _ old) => old
  | _ => mode

theorem truncated_cases {d d' : Disk} {mode : Nat} {p : Path} (h : d.truncated mode p = .ok d') :
    d.resolve p = .ok (d.placeOf p) ∧ p.namesDirectory = false ∧
      (∀ mode', d.node? (d.placeOf p) ≠ some (.directory mode')) ∧
      d' = d.put (d.placeOf p) (.file [] (d.modeOnOpening mode (d.placeOf p))) := by
  unfold truncated at h
  cases hresolve : d.resolve p with
  | error e => simp [hresolve, bind, Except.bind] at h
  | ok place =>
      obtain rfl := resolve_eq_placeOf hresolve
      simp only [hresolve, bind, Except.bind] at h
      split at h
      · cases h
      · -- a file that is there keeps its mode
        next contents old hnode =>
          have hdir := (resolve_eq_ok_iff.mp hresolve).2.2 contents old hnode
          obtain rfl := Except.ok.inj h
          exact ⟨rfl, hdir, by simp [hnode], by simp only [modeOnOpening, hnode]⟩
      · next hnode =>
          split at h
          · cases h
          · next hdir =>
              split at h
              · obtain rfl := Except.ok.inj h
                exact ⟨rfl, Bool.not_eq_true _ ▸ hdir, by simp [hnode],
                  by simp only [modeOnOpening, hnode]⟩
              · cases h
              · cases h

theorem appended_cases {d d' : Disk} {bytes : List UInt8} {p : Path}
    (h : d.appended bytes p = .ok d') :
    ∃ contents mode, d.resolve p = .ok (d.placeOf p) ∧
      d.node? (d.placeOf p) = some (.file contents mode) ∧
      d' = d.put (d.placeOf p) (.file (contents ++ bytes) mode) := by
  unfold appended at h
  cases hfind : d.find p with
  | error e => simp [hfind, bind, Except.bind] at h
  | ok found =>
      obtain ⟨place, node⟩ := found
      obtain ⟨hresolve, hnode⟩ := find_eq_ok_iff.mp hfind
      obtain rfl := resolve_eq_placeOf hresolve
      cases node with
      | file contents mode =>
          simp only [hfind, bind, Except.bind] at h
          obtain rfl := Except.ok.inj h
          exact ⟨contents, mode, hresolve, hnode, rfl⟩
      | directory mode => simp [hfind, bind, Except.bind, throw, throwThe, MonadExceptOf.throw] at h

theorem permitted_cases {d d' : Disk} {mode : Nat} {p : Path} (h : d.permitted mode p = .ok d') :
    d.resolve p = .ok (d.placeOf p) ∧
      ((∃ contents old, d.node? (d.placeOf p) = some (.file contents old) ∧
          d' = d.put (d.placeOf p) (.file contents mode)) ∨
        ∃ old, d.node? (d.placeOf p) = some (.directory old) ∧
          d' = d.put (d.placeOf p) (.directory mode)) := by
  unfold permitted at h
  cases hfind : d.find p with
  | error e => simp [hfind, bind, Except.bind] at h
  | ok found =>
      obtain ⟨place, node⟩ := found
      obtain ⟨hresolve, hnode⟩ := find_eq_ok_iff.mp hfind
      obtain rfl := resolve_eq_placeOf hresolve
      refine ⟨hresolve, ?_⟩
      cases node with
      | file contents old =>
          simp only [hfind, bind, Except.bind] at h
          obtain rfl := Except.ok.inj h
          exact Or.inl ⟨contents, old, hnode, rfl⟩
      | directory old =>
          simp only [hfind, bind, Except.bind] at h
          obtain rfl := Except.ok.inj h
          exact Or.inr ⟨old, hnode, rfl⟩

theorem removed_cases {d d' : Disk} {p : Path} (h : d.removed p = .ok d') :
    (∀ mode, d.node? (d.placeOf p) ≠ some (.directory mode)) ∧ d' = d.drop (d.placeOf p) := by
  unfold removed at h
  cases hfind : d.find p with
  | error e => simp [hfind, bind, Except.bind] at h
  | ok found =>
      obtain ⟨place, node⟩ := found
      obtain ⟨hresolve, hnode⟩ := find_eq_ok_iff.mp hfind
      obtain rfl := resolve_eq_placeOf hresolve
      cases node with
      | file contents mode =>
          simp only [hfind, bind, Except.bind] at h
          obtain rfl := Except.ok.inj h
          exact ⟨by simp [hnode], rfl⟩
      | directory mode => simp [hfind, bind, Except.bind, throw, throwThe, MonadExceptOf.throw] at h

theorem renamed_cases {d d' : Disk} {source target : Path} (h : d.renamed source target = .ok d') :
    ∃ node, d.node? (d.placeOf source) = some node ∧
      d.resolve target = .ok (d.placeOf target) ∧ target.namesDirectory = false ∧
      (∀ mode, d.node? (d.placeOf target) ≠ some (.directory mode)) ∧
      d' = (d.drop (d.placeOf source)).put (d.placeOf target) node := by
  unfold renamed at h
  cases hfind : d.find source with
  | error e => simp [hfind, bind, Except.bind] at h
  | ok found =>
      obtain ⟨place, node⟩ := found
      obtain ⟨hsource, hnode⟩ := find_eq_ok_iff.mp hfind
      obtain rfl := resolve_eq_placeOf hsource
      cases hresolve : d.resolve target with
      | error e => simp [hfind, hresolve, bind, Except.bind] at h
      | ok place =>
          obtain rfl := resolve_eq_placeOf hresolve
          simp only [hfind, hresolve, bind, Except.bind] at h
          split at h
          · cases h
          · next hdir =>
              split at h
              · cases h
              · next hnames =>
                  obtain rfl := Except.ok.inj h
                  exact ⟨node, hnode, rfl, Bool.not_eq_true _ ▸ hnames, hdir, rfl⟩

/-! ## Preparations -/

/-- From one disk to another no more was done than what prepares the replacement of a file:
directories were made on the way where nothing was, and the sibling was worked on. -/
structure Prepares (file : Path) (d d' : Disk) : Prop extends KeepsDirectories d d' where
  onWay : ∀ place, d'.isDirectoryAt place = true →
    d.isDirectoryAt place = true ∨ OnWay d file place
  elsewhere : ∀ place, place ≠ d.placeOf file.tempSibling → d'.node? place = d.node? place ∨
    d.node? place = none ∧ d'.isDirectoryAt place = true

theorem Prepares.refl (file : Path) (d : Disk) : Prepares file d d :=
  ⟨.refl d, fun _ => Or.inl, fun _ _ => Or.inl rfl⟩

theorem Prepares.trans {file : Path} {d₁ d₂ d₃ : Disk} (h : Prepares file d₁ d₂)
    (h' : Prepares file d₂ d₃) : Prepares file d₁ d₃ where
  toKeepsDirectories := h.toKeepsDirectories.trans h'.toKeepsDirectories
  onWay place hdir := by
    rcases h'.onWay place hdir with hdir | hway
    · exact h.onWay place hdir
    · exact Or.inr (h.toKeepsDirectories.onWay.mp hway)
  elsewhere place hne := by
    rcases h'.elsewhere place (by rwa [h.placeOf_eq]) with hsame | ⟨hnone, hmade⟩
    · rw [hsame, isDirectoryAt, hsame, ← isDirectoryAt]
      exact h.elsewhere place hne
    · rcases h.elsewhere place hne with hsame | ⟨-, hdir⟩
      · exact Or.inr ⟨by rw [← hsame, hnone], hmade⟩
      · obtain ⟨mode, hnode⟩ := isDirectoryAt_iff.mp hdir
        rw [hnone] at hnode
        cases hnode

/-- Which failures are in store does not matter. -/
theorem Prepares.failures (file : Path) (d : Disk) (failures : List (Option DiskFailure)) :
    Prepares file d { d with failures } :=
  ⟨⟨rfl, fun _ mode h => ⟨mode, h⟩⟩, fun _ => Or.inl, fun _ _ => Or.inl rfl⟩

/-- The file itself is spared. -/
theorem Prepares.spares {file : Path} {d d' : Disk} (h : Prepares file d d') :
    Spares (d.placeOf file) d d' := by
  refine ⟨h.toKeepsDirectories, ?_⟩
  rcases h.elsewhere _ (Ne.symm (placeOf_tempSibling_ne d file)) with hsame | ⟨hnone, hdir⟩
  · rw [contentsAt?, contentsAt?, hsame]
  · obtain ⟨mode, hnode⟩ := isDirectoryAt_iff.mp hdir
    rw [contentsAt?, contentsAt?, hnone, hnode]

theorem isDirectoryAt_put_directory {d : Disk} {place : Place} (hnone : d.node? place = none)
    (mode : Nat) : (d.put place (.directory mode)).isDirectoryAt place = true := by
  have hroot : place ≠ [] := by
    rintro rfl
    cases hnone
  exact isDirectoryAt_iff.mpr ⟨mode, node?_put_self hroot d _⟩

theorem prepares_put_directory {file : Path} {d : Disk} {place : Place}
    (hway : OnWay d file place) (hnone : d.node? place = none) (mode : Nat) :
    Prepares file d (d.put place (.directory mode)) := by
  refine ⟨keepsDirectories_put (Or.inl ⟨mode, rfl⟩), fun other hdir => ?_, fun other _ => ?_⟩
  · by_cases hother : other = place
    · exact Or.inr (hother ▸ hway)
    · rw [isDirectoryAt, node?_put_of_ne hother] at hdir
      exact Or.inl hdir
  · by_cases hother : other = place
    · subst hother
      exact Or.inr ⟨hnone, isDirectoryAt_put_directory hnone mode⟩
    · exact Or.inl (node?_put_of_ne hother d _)

/-- The sibling may be changed, but a directory stays one and none appears. -/
theorem prepares_put_sibling {file : Path} {d : Disk} {node : Node}
    (h : (∃ mode, node = .directory mode) ↔ d.isDirectoryAt (d.placeOf file.tempSibling) = true) :
    Prepares file d (d.put (d.placeOf file.tempSibling) node) := by
  have hkeeps : KeepsDirectories d (d.put (d.placeOf file.tempSibling) node) := by
    by_cases hdir : d.isDirectoryAt (d.placeOf file.tempSibling) = true
    · exact keepsDirectories_put (Or.inl (h.mpr hdir))
    · exact keepsDirectories_put (Or.inr (isDirectoryAt_eq_false_iff.mp (by simpa using hdir)))
  refine ⟨hkeeps, fun other hdir => Or.inl ?_, fun other hother => Or.inl ?_⟩
  · by_cases hother : other = d.placeOf file.tempSibling
    · subst hother
      by_cases hroot : d.placeOf file.tempSibling = []
      · rw [hroot]
        rfl
      · obtain ⟨mode, hnode⟩ := isDirectoryAt_iff.mp hdir
        rw [node?_put_self hroot] at hnode
        exact h.mp ⟨mode, Option.some.inj hnode⟩
    · rwa [isDirectoryAt, node?_put_of_ne hother] at hdir
  · exact node?_put_of_ne hother d _

theorem prepares_drop_sibling {file : Path} {d : Disk}
    (h : ∀ mode, d.node? (d.placeOf file.tempSibling) ≠ some (.directory mode)) :
    Prepares file d (d.drop (d.placeOf file.tempSibling)) := by
  refine ⟨keepsDirectories_drop h, fun other hdir => Or.inl ?_, fun other hother => Or.inl ?_⟩
  · by_cases hother : other = d.placeOf file.tempSibling
    · subst hother
      rw [isDirectoryAt, node?_drop_self (ne_nil_of_not_directory h)] at hdir
      cases hdir
    · rwa [isDirectoryAt, node?_drop_of_ne hother] at hdir
  · exact node?_drop_of_ne hother d

/-- Directories are made on the way alone. -/
theorem prepares_makeDirectories {file : Path} {mode : Nat} {names : List String} {d d' : Disk}
    {place : Place} (hway : ∀ front, front <+: names → OnWay d file (placeFrom place front))
    (h : d.makeDirectories mode place names = .ok d') : Prepares file d d' := by
  induction names generalizing d place with
  | nil =>
      obtain rfl := Except.ok.inj h
      exact .refl file d
  | cons name names ih =>
      unfold makeDirectories at h
      dsimp only at h
      have hnext : ∀ front, front <+: names → OnWay d file
          (placeFrom (if name = ".." then place.dropLast else place ++ [name]) front) :=
        fun front hfront => hway (name :: front) (List.cons_prefix_cons.mpr ⟨rfl, hfront⟩)
      split at h
      · exact ih hnext h
      · cases h
      · next hnone =>
          have hmade := prepares_put_directory (hnext [] List.nil_prefix) hnone mode
          refine hmade.trans (ih (fun front hfront => ?_) h)
          exact hmade.toKeepsDirectories.onWay.mpr (hnext front hfront)

/-! ## Steps that prepare -/

/-- A step that a replacement takes before the renaming, or when it gives up. -/
def Effect.IsPreparation (file : Path) : Effect → Prop
  | .ensureDirectory dir => file.parent? = some dir ∧ dir.isEmpty = false
  | .openTruncated temp | .write temp _ | .sync temp | .makePrivate temp | .remove temp =>
    temp = file.tempSibling
  | .rename .. => False

/-- The paths of a file and of its directory start at the same place. -/
theorem start_parent {file dir : Path} (hparent : file.parent? = some dir)
    (hempty : dir.isEmpty = false) (d : Disk) : d.start dir = d.start file := by
  rw [start, start, (Path.names_of_parent hparent hempty).2]

/-- The directory of a file is made along the way to the sibling. -/
theorem onWay_parent {d : Disk} {file dir : Path} {front : List String}
    (hparent : file.parent? = some dir) (hempty : dir.isEmpty = false)
    (hfront : front <+: dir.names) : OnWay d file (placeFrom (d.start dir) front) := by
  rw [start_parent hparent hempty]
  exact ⟨front, hfront.trans (Path.names_parent_isPrefix hparent hempty), rfl⟩

theorem prepares_apply {file : Path} {d d' : Disk} {e : Effect} (hprepares : e.IsPreparation file)
    (h : e.apply d = .ok d') : Prepares file d d' := by
  cases e with
  | ensureDirectory dir =>
      obtain ⟨hparent, hempty⟩ := hprepares
      simp only [Effect.apply] at h
      split at h
      · obtain rfl := Except.ok.inj h
        exact .refl file d
      · exact prepares_makeDirectories (fun _ hfront => onWay_parent hparent hempty hfront) h
      · cases h
  | openTruncated temp =>
      obtain rfl : temp = file.tempSibling := hprepares
      obtain ⟨-, -, hdir, rfl⟩ := truncated_cases h
      exact prepares_put_sibling (by simp [isDirectoryAt_eq_false_iff.mpr hdir])
  | write temp bytes =>
      obtain rfl : temp = file.tempSibling := hprepares
      obtain ⟨contents, mode, -, hnode, rfl⟩ := appended_cases h
      exact prepares_put_sibling (by simp [isDirectoryAt, hnode])
  | sync temp =>
      obtain rfl := Except.ok.inj h
      exact .refl file d
  | makePrivate temp =>
      obtain rfl : temp = file.tempSibling := hprepares
      obtain ⟨-, ⟨contents, old, hnode, rfl⟩ | ⟨old, hnode, rfl⟩⟩ := permitted_cases h
      · exact prepares_put_sibling (by simp [isDirectoryAt, hnode])
      · exact prepares_put_sibling (by simp [isDirectoryAt, hnode])
  | rename source target => exact hprepares.elim
  | remove temp =>
      obtain rfl : temp = file.tempSibling := hprepares
      obtain ⟨hdir, rfl⟩ := removed_cases h
      exact prepares_drop_sibling hdir

/-- A part of a step that prepares does too. -/
theorem Effect.IsPreparation.part {file : Path} {e part : Effect} {written : Nat}
    (h : e.IsPreparation file) (hpart : e.part written = some part) :
    part.IsPreparation file := by
  cases e <;> simp only [Effect.part, reduceCtorEq, Option.some.injEq] at hpart
  subst hpart
  exact h

theorem perform_eq_ok {d d' : Disk} {e : Effect} (h : d.perform e = (.ok (), d')) :
    e.apply { d with failures := d.failures.tail } = .ok d' := by
  unfold perform at h
  dsimp only at h
  split at h
  · simp at h
  · split at h
    · next happly =>
        obtain rfl := (Prod.mk.inj h).2
        exact happly
    · simp at h

/-- What a step leaves: the disk as it was but for the failure that it used up, or what the step
makes of it, or the part of the step that was done before a failure. -/
theorem perform_cases (d : Disk) (e : Effect) :
    (d.perform e).2 = { d with failures := d.failures.tail } ∨
      e.apply { d with failures := d.failures.tail } = .ok (d.perform e).2 ∨
      ∃ written part, e.part written = some part ∧
        part.apply { d with failures := d.failures.tail } = .ok (d.perform e).2 := by
  unfold perform
  dsimp only
  split
  · next failure _ =>
      cases hpart : e.part failure.written with
      | none => exact Or.inl (by simp)
      | some part =>
          cases happly : part.apply { d with failures := d.failures.tail } with
          | error e => exact Or.inl (by simp [happly, Except.toOption])
          | ok d' =>
              refine Or.inr (Or.inr ⟨failure.written, part, hpart, ?_⟩)
              simp [happly, Except.toOption]
  · split
    · next happly => exact Or.inr (Or.inl happly)
    · exact Or.inl rfl

/-- A step that prepares does no more than that, be it that it fails. -/
theorem prepares_perform {file : Path} {e : Effect} (h : e.IsPreparation file) (d : Disk) :
    Prepares file d (d.perform e).2 := by
  have hrest := Prepares.failures file d d.failures.tail
  rcases perform_cases d e with heq | happly | ⟨written, part, hpart, happly⟩
  · rwa [heq]
  · exact hrest.trans (prepares_apply h happly)
  · exact hrest.trans (prepares_apply (h.part hpart) happly)

theorem prepares_performAll {file : Path} {steps : List Effect}
    (h : ∀ e ∈ steps, e.IsPreparation file) (d : Disk) :
    Prepares file d (d.performAll steps).2 := by
  induction steps generalizing d with
  | nil => exact .refl file d
  | cons e steps ih =>
      have hfirst := prepares_perform (h e List.mem_cons_self) d
      unfold performAll
      split
      · next d' hperform =>
          rw [hperform] at hfirst
          exact hfirst.trans (ih (fun e' he' => h e' (List.mem_cons_of_mem _ he')) d')
      · exact hfirst

/-- A step that fails changes nothing, unless it can be done in part. -/
theorem perform_of_error {d d' : Disk} {e : Effect} {error : OsError}
    (hwhole : ∀ written, e.part written = none) (h : d.perform e = (.error error, d')) :
    d' = { d with failures := d.failures.tail } := by
  unfold perform at h
  dsimp only at h
  split at h
  · rw [hwhole] at h
    exact (Prod.mk.inj h).2.symm
  · split at h
    · simp at h
    · exact (Prod.mk.inj h).2.symm

theorem performAll_append (d : Disk) (steps more : List Effect) :
    d.performAll (steps ++ more) =
      match d.performAll steps with
      | (.ok (), d) => d.performAll more
      | failed => failed := by
  induction steps generalizing d with
  | nil => rfl
  | cons e steps ih =>
      rw [List.cons_append, performAll, performAll]
      cases hperform : d.perform e with
      | mk result d' =>
          cases result with
          | error error => rfl
          | ok u => exact ih d'

/-! ## Steps that prepare the sibling -/

theorem read_truncated {d d' : Disk} {mode : Nat} {p : Path} (h : d.truncated mode p = .ok d') :
    d'.read p = .ok [] := by
  obtain ⟨hresolve, hnames, hdir, rfl⟩ := truncated_cases h
  exact (keepsDirectories_put (Or.inr hdir)).read hresolve hnames
    (node?_put_self (ne_nil_of_not_directory hdir) d _)

theorem read_appended {d d' : Disk} {contents bytes : List UInt8} {p : Path}
    (hread : d.read p = .ok contents) (h : d.appended bytes p = .ok d') :
    d'.read p = .ok (contents ++ bytes) := by
  obtain ⟨old, mode, hresolve, hnode, rfl⟩ := appended_cases h
  obtain ⟨mode', hnode'⟩ := node?_of_read hread
  obtain ⟨rfl, rfl⟩ := Node.file.inj (Option.some.inj (hnode'.symm.trans hnode))
  have hdir : ∀ mode', d.node? (d.placeOf p) ≠ some (.directory mode') := by simp [hnode]
  exact (keepsDirectories_put (Or.inr hdir)).read hresolve
    ((resolve_eq_ok_iff.mp hresolve).2.2 _ _ hnode)
    (node?_put_self (ne_nil_of_not_directory hdir) d _)

theorem read_permitted {d d' : Disk} {contents : List UInt8} {mode : Nat} {p : Path}
    (hread : d.read p = .ok contents) (h : d.permitted mode p = .ok d') :
    d'.read p = .ok contents := by
  obtain ⟨old, hnode⟩ := node?_of_read hread
  obtain ⟨hresolve, ⟨old', mode', hnode', rfl⟩ | ⟨old', hnode', rfl⟩⟩ := permitted_cases h
  · obtain ⟨rfl, -⟩ := Node.file.inj (Option.some.inj (hnode.symm.trans hnode'))
    have hdir : ∀ mode', d.node? (d.placeOf p) ≠ some (.directory mode') := by simp [hnode]
    exact (keepsDirectories_put (Or.inr hdir)).read hresolve
      ((resolve_eq_ok_iff.mp hresolve).2.2 _ _ hnode)
      (node?_put_self (ne_nil_of_not_directory hdir) d _)
  · rw [hnode] at hnode'
    cases hnode'

/-- A file that is renamed is read at its new place. -/
theorem read_renamed {d d' : Disk} {contents : List UInt8} {source target : Path}
    (hread : d.read source = .ok contents) (h : d.renamed source target = .ok d') :
    d'.read target = .ok contents := by
  obtain ⟨mode, hfile⟩ := node?_of_read hread
  obtain ⟨node, hnode, hresolve, hnames, hdir, rfl⟩ := renamed_cases h
  obtain rfl := Option.some.inj (hfile.symm.trans hnode)
  have hdrop : KeepsDirectories d (d.drop (d.placeOf source)) :=
    keepsDirectories_drop (by simp [hfile])
  -- a file may be renamed to itself: its place is then empty while it moves
  have hdir' : ∀ mode', (d.drop (d.placeOf source)).node? (d.placeOf target) ≠
      some (.directory mode') := by
    intro mode' hfound
    by_cases hsame : d.placeOf target = d.placeOf source
    · have hroot : d.placeOf source ≠ [] := ne_nil_of_not_directory (d := d) (by simp [hfile])
      rw [hsame, node?_drop_self hroot] at hfound
      cases hfound
    · rw [node?_drop_of_ne hsame] at hfound
      exact hdir mode' hfound
  have hput : KeepsDirectories d
      ((d.drop (d.placeOf source)).put (d.placeOf target) (.file contents mode)) :=
    hdrop.trans (keepsDirectories_put (Or.inr hdir'))
  exact hput.read hresolve hnames (node?_put_self (ne_nil_of_not_directory hdir) _ _)

/-- The next step finds the files that the last one left. -/
theorem read_spent {d : Disk} {p : Path} {contents : List UInt8} (h : d.read p = .ok contents) :
    Disk.read { d with failures := d.failures.tail } p = .ok contents :=
  (Spares.failures (d.placeOf p) d d.failures.tail).read h

/-- The steps that prepare the sibling of a file. -/
def preparation (file : Path) (contents : List UInt8) : List Effect :=
  [.openTruncated file.tempSibling, .write file.tempSibling contents, .sync file.tempSibling,
    .makePrivate file.tempSibling]

theorem contentSteps_eq (file : Path) (contents : List UInt8) :
    contentSteps file contents = preparation file contents ++ [.rename file.tempSibling file] := rfl

theorem performAll_cons_eq_ok {d d' : Disk} {e : Effect} {steps : List Effect}
    (h : d.performAll (e :: steps) = (.ok (), d')) :
    ∃ d₁, e.apply { d with failures := d.failures.tail } = .ok d₁ ∧
      d₁.performAll steps = (.ok (), d') := by
  rw [performAll] at h
  split at h
  · next d₁ hperform => exact ⟨d₁, perform_eq_ok hperform, h⟩
  · next hfailed => exact (hfailed d' h).elim

/-- The prepared sibling holds the new contents. -/
theorem read_preparation {d d' : Disk} {file : Path} {contents : List UInt8}
    (h : d.performAll (preparation file contents) = (.ok (), d')) :
    d'.read file.tempSibling = .ok contents := by
  obtain ⟨d₁, hopen, h⟩ := performAll_cons_eq_ok h
  obtain ⟨d₂, hwrite, h⟩ := performAll_cons_eq_ok h
  obtain ⟨d₃, hsync, h⟩ := performAll_cons_eq_ok h
  obtain ⟨d₄, hprivate, h⟩ := performAll_cons_eq_ok h
  have hwritten := read_appended (read_spent (read_truncated hopen)) hwrite
  have hsynced : d₃.read file.tempSibling = .ok contents := by
    obtain rfl := Except.ok.inj hsync
    exact read_spent hwritten
  obtain rfl := (Prod.mk.inj h).2
  exact read_permitted (read_spent hsynced) hprivate

theorem isPreparation_preparation (file : Path) (contents : List UInt8) :
    ∀ e ∈ preparation file contents, e.IsPreparation file := by
  intro e he
  simp only [preparation, List.mem_cons, List.not_mem_nil, or_false] at he
  rcases he with rfl | rfl | rfl | rfl <;> rfl

/-- The directory of the file is all that is made. -/
theorem eq_ensureDirectory_of_mem {file : Path} {e : Effect} (he : e ∈ directorySteps file) :
    ∃ dir, e = .ensureDirectory dir ∧ file.parent? = some dir ∧ dir.isEmpty = false := by
  unfold directorySteps at he
  split at he
  · next parent hparent =>
      split at he
      · cases he
      · next hempty =>
          obtain rfl := List.mem_singleton.mp he
          exact ⟨parent, rfl, hparent, by simpa using hempty⟩
  · cases he

theorem isPreparation_directorySteps (file : Path) :
    ∀ e ∈ directorySteps file, e.IsPreparation file := by
  intro e he
  obtain ⟨dir, rfl, hdir⟩ := eq_ensureDirectory_of_mem he
  exact hdir

theorem isPreparation_remove (file : Path) :
    (Effect.remove file.tempSibling).IsPreparation file := rfl

/-! ## Replacements -/

/-- Steps that end early have only prepared: the last of them, the renaming, is the one that
touches the file. -/
theorem prepares_contentSteps {d d' : Disk} {file : Path} {contents : List UInt8} {error : OsError}
    (h : d.performAll (contentSteps file contents) = (.error error, d')) : Prepares file d d' := by
  have hprepare := prepares_performAll (isPreparation_preparation file contents) d
  rw [contentSteps_eq, performAll_append] at h
  cases hprepared : d.performAll (preparation file contents) with
  | mk result d₁ =>
      rw [hprepared] at hprepare
      cases result with
      | error error' =>
          simp only [hprepared] at h
          obtain rfl := (Prod.mk.inj h).2
          exact hprepare
      | ok u =>
          simp only [hprepared, performAll] at h
          split at h
          · simp at h
          · rw [perform_of_error (fun _ => rfl) h]
            exact hprepare.trans (.failures file d₁ _)

/-- Steps that succeed end with the renaming of a sibling that holds the new contents. -/
theorem contentSteps_eq_ok {d d' : Disk} {file : Path} {contents : List UInt8}
    (h : d.performAll (contentSteps file contents) = (.ok (), d')) :
    ∃ d₁, Prepares file d d₁ ∧ d₁.read file.tempSibling = .ok contents ∧
      d₁.renamed file.tempSibling file = .ok d' := by
  have hprepare := prepares_performAll (isPreparation_preparation file contents) d
  rw [contentSteps_eq, performAll_append] at h
  cases hprepared : d.performAll (preparation file contents) with
  | mk result d₁ =>
      rw [hprepared] at hprepare
      cases result with
      | error error => simp [hprepared] at h
      | ok u =>
          simp only [hprepared] at h
          obtain ⟨d₂, happly, hdone⟩ := performAll_cons_eq_ok h
          obtain rfl := (Prod.mk.inj hdone).2
          exact ⟨_, hprepare.trans (.failures file d₁ _), read_spent (read_preparation hprepared),
            happly⟩

/-- **A replacement that succeeds** has prepared the new contents and then renamed them. -/
theorem replace_eq_ok {d d' : Disk} {file : Path} {contents : List UInt8}
    (h : d.replace file contents = (.ok (), d')) :
    ∃ d₁, Prepares file d d₁ ∧ d₁.read file.tempSibling = .ok contents ∧
      d₁.renamed file.tempSibling file = .ok d' := by
  have hdirectory := prepares_performAll (isPreparation_directorySteps file) d
  unfold replace at h
  split at h
  · simp at h
  · next d₁ hmade =>
      rw [hmade] at hdirectory
      split at h
      · next d₂ hdone =>
          obtain rfl := (Prod.mk.inj h).2
          obtain ⟨d₃, hprepare, hread, hrename⟩ := contentSteps_eq_ok hdone
          exact ⟨d₃, hdirectory.trans hprepare, hread, hrename⟩
      · simp at h

/-- **A replacement that fails has only prepared.** -/
theorem prepares_replace {d d' : Disk} {file : Path} {contents : List UInt8} {error : OsError}
    (h : d.replace file contents = (.error error, d')) : Prepares file d d' := by
  have hdirectory := prepares_performAll (isPreparation_directorySteps file) d
  unfold replace at h
  split at h
  · next hfailed =>
      obtain rfl := (Prod.mk.inj h).2
      rwa [hfailed] at hdirectory
  · next d₁ hmade =>
      rw [hmade] at hdirectory
      split at h
      · simp at h
      · next d₂ hfailed =>
          obtain rfl := (Prod.mk.inj h).2
          have hremoved := prepares_perform (isPreparation_remove file) d₂
          exact (hdirectory.trans (prepares_contentSteps hfailed)).trans hremoved

/-- **A replacement that succeeds leaves the new contents to be read.** -/
theorem read_replace {d d' : Disk} {file : Path} {contents : List UInt8}
    (h : d.replace file contents = (.ok (), d')) : d'.read file = .ok contents := by
  obtain ⟨d₁, -, hread, hrename⟩ := replace_eq_ok h
  exact read_renamed hread hrename

/-- **A replacement that fails spares the file.** -/
theorem spares_replace {d d' : Disk} {file : Path} {contents : List UInt8} {error : OsError}
    (h : d.replace file contents = (.error error, d')) : Spares (d.placeOf file) d d' :=
  (prepares_replace h).spares

theorem discardTemp_snd (d : Disk) (file : Path) :
    (d.discardTemp file).2 = (d.perform (.remove file.tempSibling)).2 := by
  unfold discardTemp
  split <;> next hresult => rw [hresult]

/-- Clearing an interrupted replacement away is one of the preparations. -/
theorem prepares_discardTemp (d : Disk) (file : Path) : Prepares file d (d.discardTemp file).2 := by
  rw [discardTemp_snd]
  exact prepares_perform (isPreparation_remove file) d

/-- Clearing an interrupted replacement away spares the file. -/
theorem spares_discardTemp (d : Disk) (file : Path) :
    Spares (d.placeOf file) d (d.discardTemp file).2 := (prepares_discardTemp d file).spares

/-- A removal loses a file at most, be it that it fails. -/
theorem onlyLoses_perform_remove (d : Disk) (file : Path) :
    OnlyLoses d (d.perform (.remove file)).2 := by
  have hrest := OnlyLoses.failures d d.failures.tail
  unfold perform
  dsimp only
  split
  · exact hrest
  · split
    · next d' happly =>
        obtain ⟨hfile, rfl⟩ := removed_cases happly
        exact hrest.trans (onlyLoses_drop hfile)
    · exact hrest

/-- Clearing an interrupted replacement away loses a file at most. -/
theorem onlyLoses_discardTemp (d : Disk) (file : Path) : OnlyLoses d (d.discardTemp file).2 := by
  rw [discardTemp_snd]
  exact onlyLoses_perform_remove d file.tempSibling

/-! ## Ways that stay clear -/

/-- A directory that preparations have made is neither at the place of the file nor at that of its
sibling. -/
theorem Prepares.was_directory {p : Path} {d d' : Disk} (h : Prepares p d d') (hclear : Clear d p)
    {place : Place} (hplace : place = d.placeOf p ∨ place = d.placeOf p.tempSibling)
    (hdir : d'.isDirectoryAt place = true) : d.isDirectoryAt place = true := by
  rcases h.onWay place hdir with hdir | hway
  · exact hdir
  · rcases hclear.way place hway with hdir | ⟨-, hfile, hsibling⟩
    · exact hdir
    · exact absurd hplace (not_or.mpr ⟨hfile, hsibling⟩)

/-- **Preparations leave the file as it is**: its contents and its permissions, or that there is
none. -/
theorem Prepares.node?_eq {p : Path} {d d' : Disk} (h : Prepares p d d') (hclear : Clear d p) :
    d'.node? (d.placeOf p) = d.node? (d.placeOf p) := by
  rcases h.elsewhere _ (Ne.symm (placeOf_tempSibling_ne d p)) with hsame | ⟨hnone, hdir⟩
  · exact hsame
  · obtain ⟨mode, hnode⟩ := isDirectoryAt_iff.mp (h.was_directory hclear (Or.inl rfl) hdir)
    rw [hnone] at hnode
    cases hnode

/-- Whether a directory is in the sibling's place does not change. -/
theorem Prepares.sibling_eq {p : Path} {d d' : Disk} (h : Prepares p d d') (hclear : Clear d p) :
    d'.isDirectoryAt (d'.placeOf p.tempSibling) = d.isDirectoryAt (d.placeOf p.tempSibling) := by
  rw [h.placeOf_eq, Bool.eq_iff_iff]
  exact ⟨h.was_directory hclear (Or.inr rfl), h.isDirectoryAt⟩

/-- **Preparations leave the way clear.** -/
theorem Prepares.clear {p : Path} {d d' : Disk} (h : Prepares p d d') (hclear : Clear d p) :
    Clear d' p where
  start := by
    rw [h.start_eq]
    exact h.isDirectoryAt hclear.start
  way place hway := by
    have hway' := h.toKeepsDirectories.onWay.mp hway
    rcases hclear.way place hway' with hdir | ⟨hnone, hfile, hsibling⟩
    · exact Or.inl (h.isDirectoryAt hdir)
    · rw [h.placeOf_eq, h.placeOf_eq]
      rcases h.elsewhere place hsibling with hsame | ⟨-, hdir⟩
      · exact Or.inr ⟨hsame.trans hnone, hfile, hsibling⟩
      · exact Or.inl hdir
  target := by
    rcases hclear.target with hempty | hnone | ⟨bytes, hread⟩
    · exact Or.inl hempty
    · exact Or.inr (Or.inl (by rw [h.placeOf_eq, h.node?_eq hclear, hnone]))
    · exact Or.inr (Or.inr ⟨bytes, h.spares.read hread⟩)

/-- **Preparations are not seen by a reader of the file.** -/
theorem Prepares.read_eq {p : Path} {d d' : Disk} (h : Prepares p d d') (hclear : Clear d p) :
    d'.read p = d.read p := by
  have hmissing (hnone : p.isEmpty = true ∨ d.node? (d.placeOf p) = none) :
      d'.read p = d.read p := by
    rw [read_of_missing hclear hnone]
    refine read_of_missing (h.clear hclear) (hnone.imp_right fun hnone => ?_)
    rw [h.placeOf_eq, h.node?_eq hclear, hnone]
  rcases hclear.target with hempty | hnone | ⟨bytes, hread⟩
  · exact hmissing (Or.inl hempty)
  · exact hmissing (Or.inr hnone)
  · rw [hread, h.spares.read hread]

/-- **A replacement leaves the way clear**, be it that it fails. -/
theorem Clear.replace {d : Disk} {p : Path} (h : Clear d p) (contents : List UInt8) :
    Clear (d.replace p contents).2 p := by
  cases hreplace : d.replace p contents with
  | mk result d' =>
      cases result with
      | ok u => exact clear_of_read (read_replace hreplace)
      | error error => exact (prepares_replace hreplace).clear h

end Disk

end OverlayVpn
