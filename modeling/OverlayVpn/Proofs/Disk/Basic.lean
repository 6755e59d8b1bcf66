import OverlayVpn.Disk.Basic
import OverlayVpn.Proofs.Path
import OverlayVpn.Store.KeyMap

set_option autoImplicit false

/-! # Files and the places of their paths

A path that can be followed leads to the place that its names spell (`resolve_eq_placeOf`), so that
a file and the sibling in which its new contents are prepared never meet
(`placeOf_tempSibling_ne`). A change of a disk spares a place (`Spares`) when the file there stays
as it is and no directory is lost; whoever could read the file can then still do so
(`Spares.read`). -/

namespace OverlayVpn

namespace Disk

/-! ## What is found after a change -/

theorem ne_nil_of_not_directory {d : Disk} {place : Place}
    (h : ∀ mode, d.node? place ≠ some (.directory mode)) : place ≠ [] := by
  rintro rfl
  exact h _ rfl

theorem node?_put_self {place : Place} (h : place ≠ []) (d : Disk) (node : Node) :
    (d.put place node).node? place = some node := by
  simp [node?, put, h]

theorem node?_put_of_ne {place other : Place} (h : other ≠ place) (d : Disk) (node : Node) :
    (d.put place node).node? other = d.node? other := by
  have hne : (other == place) = false := beq_eq_false_iff_ne.mpr h
  simp only [node?, put, List.lookup_cons, hne, lookup_filter_of_ne d.nodes h]

theorem node?_drop_self {place : Place} (h : place ≠ []) (d : Disk) :
    (d.drop place).node? place = none := by
  simp [node?, drop, h, lookup_filter_self]

theorem node?_drop_of_ne {place other : Place} (h : other ≠ place) (d : Disk) :
    (d.drop place).node? other = d.node? other := by
  simp only [node?, drop, lookup_filter_of_ne d.nodes h]

/-! ## The places of paths -/

/-- The place that names spell from a place on, whatever is found on the way. -/
def placeFrom (place : Place) (names : List String) : Place :=
  names.foldl (fun place name => if name = ".." then place.dropLast else place ++ [name]) place

/-- The place that a path spells. -/
def placeOf (d : Disk) (p : Path) : Place := placeFrom (d.start p) p.names

theorem follow_eq_placeFrom {d : Disk} {names : List String} {place found : Place}
    (h : d.follow place names = .ok found) : found = placeFrom place names := by
  induction names generalizing place with
  | nil =>
      simp only [follow, Except.ok.injEq] at h
      exact h.symm
  | cons name names ih =>
      unfold follow at h
      split at h
      · cases h
      · cases h
      · exact ih h

/-- What it takes for a path to lead to a place: directories on the way, and no file where the
path asks for a directory. -/
theorem resolve_eq_ok_iff {d : Disk} {p : Path} {place : Place} :
    d.resolve p = .ok place ↔
      p.isEmpty = false ∧ d.follow (d.start p) p.names = .ok place ∧
        ∀ contents mode, d.node? place = some (.file contents mode) → p.namesDirectory = false := by
  unfold resolve
  cases hempty : p.isEmpty with
  | true => simp [throw, throwThe, MonadExceptOf.throw, bind, Except.bind]
  | false =>
      cases hfollow : d.follow (d.start p) p.names with
      | error e => simp [bind, Except.bind]
      | ok found =>
          simp only [Bool.false_eq_true, if_false, bind, Except.bind, pure, Except.pure, true_and,
            Except.ok.injEq]
          constructor
          · intro h
            split at h
            · next hnode =>
                split at h
                · cases h
                · next hfile =>
                    obtain rfl := Except.ok.inj h
                    exact ⟨rfl, fun _ _ _ => Bool.not_eq_true _ ▸ hfile⟩
            · next hnode =>
                obtain rfl := Except.ok.inj h
                exact ⟨rfl, fun contents mode hfile => absurd hfile (hnode contents mode)⟩
          · rintro ⟨rfl, hdir⟩
            split
            · next hnode => simp [hdir _ _ hnode]
            · rfl

/-- **A path leads to the place that it spells.** -/
theorem resolve_eq_placeOf {d : Disk} {p : Path} {place : Place} (h : d.resolve p = .ok place) :
    place = d.placeOf p := follow_eq_placeFrom (resolve_eq_ok_iff.mp h).2.1

theorem find_eq_ok_iff {d : Disk} {p : Path} {place : Place} {node : Node} :
    d.find p = .ok (place, node) ↔ d.resolve p = .ok place ∧ d.node? place = some node := by
  unfold find
  cases hresolve : d.resolve p with
  | error e => simp [bind, Except.bind]
  | ok found =>
      simp only [bind, Except.bind, Except.ok.injEq]
      constructor
      · intro h
        split at h
        · next hnode =>
            obtain ⟨rfl, rfl⟩ := Prod.mk.inj (Except.ok.inj h)
            exact ⟨rfl, hnode⟩
        · cases h
      · rintro ⟨rfl, hnode⟩
        rw [hnode]
        rfl

/-- A file is read when its path leads to it. -/
theorem read_eq_ok_iff {d : Disk} {p : Path} {contents : List UInt8} :
    d.read p = .ok contents ↔
      ∃ place mode, d.resolve p = .ok place ∧ d.node? place = some (.file contents mode) := by
  unfold read
  cases hfind : d.find p with
  | error e =>
      simp only [bind, Except.bind, reduceCtorEq, false_iff, not_exists, not_and]
      intro place mode hresolve hnode
      rw [find_eq_ok_iff.mpr ⟨hresolve, hnode⟩] at hfind
      cases hfind
  | ok found =>
      obtain ⟨place, node⟩ := found
      obtain ⟨hresolve, hnode⟩ := find_eq_ok_iff.mp hfind
      cases node with
      | file old mode =>
          simp only [bind, Except.bind, pure, Except.pure, Except.ok.injEq, hresolve, hnode,
            exists_and_left, exists_eq_left', Option.some.injEq, Node.file.injEq]
          simp
      | directory mode =>
          simp only [bind, Except.bind, throw, throwThe, MonadExceptOf.throw, reduceCtorEq, false_iff,
            hresolve, Except.ok.injEq, not_exists, not_and]
          rintro place mode' rfl hfile
          rw [hnode] at hfile
          cases hfile

/-- The file that a path leads to is at the place that the path spells. -/
theorem node?_of_read {d : Disk} {p : Path} {contents : List UInt8} (h : d.read p = .ok contents) :
    ∃ mode, d.node? (d.placeOf p) = some (.file contents mode) := by
  obtain ⟨place, mode, hresolve, hnode⟩ := read_eq_ok_iff.mp h
  obtain rfl := resolve_eq_placeOf hresolve
  exact ⟨mode, hnode⟩

/-! ## Places that stay as they are -/

/-- The contents of the file at a place, if there is one. -/
def contentsAt? (d : Disk) (place : Place) : Option (List UInt8) :=
  match d.node? place with
  | some (.file contents _) => some contents
  | _ => none

theorem contentsAt?_eq_some_iff {d : Disk} {place : Place} {contents : List UInt8} :
    d.contentsAt? place = some contents ↔ ∃ mode, d.node? place = some (.file contents mode) := by
  unfold contentsAt?
  split
  · next hnode => simp [hnode]
  · next hnode =>
      simp only [reduceCtorEq, false_iff, not_exists]
      exact fun mode hfile => hnode contents mode hfile

/-- No directory is lost between two disks. -/
structure KeepsDirectories (d d' : Disk) : Prop where
  workingDirectory_eq : d'.workingDirectory = d.workingDirectory
  directory : ∀ place mode, d.node? place = some (.directory mode) →
    ∃ mode', d'.node? place = some (.directory mode')

/-- The change from one disk to another spares a place: a file there keeps its contents, none
appears there, and no directory is lost anywhere. -/
structure Spares (place : Place) (d d' : Disk) : Prop extends KeepsDirectories d d' where
  contentsAt?_eq : d'.contentsAt? place = d.contentsAt? place

theorem KeepsDirectories.refl (d : Disk) : KeepsDirectories d d := ⟨rfl, fun _ mode h => ⟨mode, h⟩⟩

theorem KeepsDirectories.trans {d₁ d₂ d₃ : Disk} (h : KeepsDirectories d₁ d₂)
    (h' : KeepsDirectories d₂ d₃) : KeepsDirectories d₁ d₃ where
  workingDirectory_eq := by rw [h'.workingDirectory_eq, h.workingDirectory_eq]
  directory place mode hdir := by
    obtain ⟨mode', hdir'⟩ := h.directory place mode hdir
    exact h'.directory place mode' hdir'

theorem KeepsDirectories.start_eq {d d' : Disk} (h : KeepsDirectories d d') (p : Path) :
    d'.start p = d.start p := by rw [start, start, h.workingDirectory_eq]

theorem KeepsDirectories.placeOf_eq {d d' : Disk} (h : KeepsDirectories d d') (p : Path) :
    d'.placeOf p = d.placeOf p := by rw [placeOf, placeOf, h.start_eq]

/-- A path that can be followed still can. -/
theorem KeepsDirectories.follow {d d' : Disk} (h : KeepsDirectories d d') {names : List String}
    {place found : Place} (hfollow : d.follow place names = .ok found) :
    d'.follow place names = .ok found := by
  induction names generalizing place with
  | nil => exact hfollow
  | cons name names ih =>
      unfold Disk.follow at hfollow
      split at hfollow
      · cases hfollow
      · cases hfollow
      · next hdir =>
          obtain ⟨mode', hdir'⟩ := h.directory place _ hdir
          rw [Disk.follow, hdir']
          exact ih hfollow

/-- A file at the place that a path led to is read by that path. -/
theorem KeepsDirectories.read {d d' : Disk} (h : KeepsDirectories d d') {p : Path} {place : Place}
    {contents : List UInt8} {mode : Nat} (hresolve : d.resolve p = .ok place)
    (hdir : p.namesDirectory = false) (hnode : d'.node? place = some (.file contents mode)) :
    d'.read p = .ok contents := by
  obtain ⟨hempty, hfollow, -⟩ := resolve_eq_ok_iff.mp hresolve
  refine read_eq_ok_iff.mpr ⟨place, mode, resolve_eq_ok_iff.mpr ⟨hempty, ?_, ?_⟩, hnode⟩
  · rw [h.start_eq]
    exact h.follow hfollow
  · exact fun _ _ _ => hdir

/-- Which failures are in store does not matter. -/
theorem Spares.failures (place : Place) (d : Disk) (failures : List (Option DiskFailure)) :
    Spares place d { d with failures } := ⟨⟨rfl, fun _ mode h => ⟨mode, h⟩⟩, rfl⟩

/-- **A file that is spared can still be read.** -/
theorem Spares.read {d d' : Disk} {p : Path} {contents : List UInt8}
    (h : Spares (d.placeOf p) d d') (hread : d.read p = .ok contents) :
    d'.read p = .ok contents := by
  obtain ⟨place, mode, hresolve, hnode⟩ := read_eq_ok_iff.mp hread
  obtain rfl := resolve_eq_placeOf hresolve
  have hcontents : d'.contentsAt? (d.placeOf p) = some contents := by
    rw [h.contentsAt?_eq]
    exact contentsAt?_eq_some_iff.mpr ⟨mode, hnode⟩
  obtain ⟨mode', hnode'⟩ := contentsAt?_eq_some_iff.mp hcontents
  have hdir := (resolve_eq_ok_iff.mp hresolve).2.2 contents mode hnode
  exact h.toKeepsDirectories.read hresolve hdir hnode'

/-! ## Paths that lead to nothing -/

/-- What it takes for a path to lead to nothing: a directory that is missing on the way, or no entry
in the last. -/
theorem read_eq_noEntry_iff {d : Disk} {p : Path} :
    d.read p = .error .noEntry ↔ p.isEmpty = true ∨
      d.follow (d.start p) p.names = .error .noEntry ∨
      ∃ place, d.follow (d.start p) p.names = .ok place ∧ d.node? place = none := by
  unfold read find resolve
  cases hempty : p.isEmpty with
  | true => simp [throw, throwThe, MonadExceptOf.throw, bind, Except.bind]
  | false =>
      cases hfollow : d.follow (d.start p) p.names with
      | error e => simp [bind, Except.bind]
      | ok place =>
          cases hnode : d.node? place with
          | none => simp [bind, Except.bind, pure, Except.pure, throw, throwThe,
              MonadExceptOf.throw, hnode]
          | some node =>
              cases node with
              | file contents mode =>
                  cases hdir : p.namesDirectory <;>
                    simp [bind, Except.bind, pure, Except.pure, throw, throwThe,
                      MonadExceptOf.throw, hnode]
              | directory mode => simp [bind, Except.bind, pure, Except.pure, throw, throwThe,
                  MonadExceptOf.throw, hnode]

/-- A change makes nothing, and loses files at most. -/
structure OnlyLoses (d d' : Disk) : Prop extends KeepsDirectories d d' where
  nothing : ∀ place, d.node? place = none → d'.node? place = none

theorem OnlyLoses.failures (d : Disk) (failures : List (Option DiskFailure)) :
    OnlyLoses d { d with failures } := ⟨⟨rfl, fun _ mode h => ⟨mode, h⟩⟩, fun _ h => h⟩

theorem OnlyLoses.trans {d₁ d₂ d₃ : Disk} (h : OnlyLoses d₁ d₂) (h' : OnlyLoses d₂ d₃) :
    OnlyLoses d₁ d₃ :=
  ⟨h.toKeepsDirectories.trans h'.toKeepsDirectories,
    fun place hnone => h'.nothing place (h.nothing place hnone)⟩

theorem OnlyLoses.follow_noEntry {d d' : Disk} (h : OnlyLoses d d') {names : List String}
    {place : Place} (hfollow : d.follow place names = .error .noEntry) :
    d'.follow place names = .error .noEntry := by
  induction names generalizing place with
  | nil => cases hfollow
  | cons name names ih =>
      unfold Disk.follow at hfollow
      split at hfollow
      · next hnone => rw [Disk.follow, h.nothing place hnone]
      · cases hfollow
      · next hdir =>
          obtain ⟨mode', hdir'⟩ := h.directory place _ hdir
          rw [Disk.follow, hdir']
          exact ih hfollow

/-- **A path that led to nothing still does**, when files were lost at most. -/
theorem OnlyLoses.read_noEntry {d d' : Disk} (h : OnlyLoses d d') {p : Path}
    (hread : d.read p = .error .noEntry) : d'.read p = .error .noEntry := by
  rw [read_eq_noEntry_iff, h.start_eq]
  rcases read_eq_noEntry_iff.mp hread with hempty | hfollow | ⟨place, hfollow, hnone⟩
  · exact Or.inl hempty
  · exact Or.inr (Or.inl (h.follow_noEntry hfollow))
  · exact Or.inr (Or.inr ⟨place, h.follow hfollow, h.nothing place hnone⟩)

theorem keepsDirectories_put {d : Disk} {place : Place} {node : Node}
    (h : (∃ mode, node = .directory mode) ∨ ∀ mode, d.node? place ≠ some (.directory mode)) :
    KeepsDirectories d (d.put place node) where
  workingDirectory_eq := rfl
  directory other mode hdir := by
    by_cases hother : other = place
    · subst hother
      -- the root is a directory whatever is put there
      by_cases hroot : other = []
      · subst hroot
        exact ⟨_, rfl⟩
      · rcases h with ⟨mode', rfl⟩ | h
        · exact ⟨mode', node?_put_self hroot d _⟩
        · exact absurd hdir (h mode)
    · exact ⟨mode, by rw [node?_put_of_ne hother, hdir]⟩

theorem keepsDirectories_drop {d : Disk} {place : Place}
    (h : ∀ mode, d.node? place ≠ some (.directory mode)) : KeepsDirectories d (d.drop place) where
  workingDirectory_eq := rfl
  directory other mode hdir := by
    have hother : other ≠ place := by
      rintro rfl
      exact h mode hdir
    exact ⟨mode, by rw [node?_drop_of_ne hother, hdir]⟩

/-- A file that is dropped is all that is lost. -/
theorem onlyLoses_drop {d : Disk} {place : Place}
    (h : ∀ mode, d.node? place ≠ some (.directory mode)) : OnlyLoses d (d.drop place) where
  toKeepsDirectories := keepsDirectories_drop h
  nothing other hnone := by
    by_cases hother : other = place
    · subst hother
      exact node?_drop_self (ne_nil_of_not_directory h) d
    · rw [node?_drop_of_ne hother, hnone]

/-! ## Files and their siblings -/

theorem placeFrom_concat (place : Place) (names : List String) {name : String} (h : name ≠ "..") :
    placeFrom place (names ++ [name]) = placeFrom place names ++ [name] := by
  rw [placeFrom, List.foldl_append, List.foldl_cons, if_neg h]
  rfl

/-- **A file and its sibling are at different places.** -/
theorem placeOf_tempSibling_ne (d : Disk) (p : Path) : d.placeOf p.tempSibling ≠ d.placeOf p := by
  have hstart : d.start p.tempSibling = d.start p := by
    rw [start, start, Path.isAbsolute_tempSibling]
  have hlength (name : String) : (name ++ ".tmp").length = name.length + 4 :=
    String.length_append name ".tmp"
  rw [placeOf, placeOf, hstart]
  rcases Path.names_tempSibling p with ⟨front, name, hnames, hup, htemp⟩ | htemp
  · rw [htemp, hnames, placeFrom_concat _ _ hup,
      placeFrom_concat _ _ (Path.append_tmp_ne_up name)]
    intro heq
    -- the last names differ in length
    have hlast := (List.append_inj' heq rfl).2
    have hlen := hlength name
    rw [List.cons.inj hlast |>.1] at hlen
    omega
  · rw [htemp, placeFrom_concat _ _ (by decide)]
    intro heq
    have hlen := congrArg List.length heq
    simp at hlen

end Disk

end OverlayVpn
