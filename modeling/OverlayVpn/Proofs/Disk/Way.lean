import OverlayVpn.Proofs.Disk.Basic

set_option autoImplicit false

/-! # The way to a file

The directories on the way to a file may be missing; the first write makes them. The way is clear
(`Clear`) when nothing else stands in it and the file is there to be read or missing. A clear way
is all that a replacement needs, and it is what a reader finds who can read the file
(`clear_of_read`), or to whom it is missing, as long as no `..` leads out of a directory that is
missing itself (`clear_of_noEntry`). Such a `..` makes the directories of one way lead to another
file, that a reader did not see before they were made. -/

namespace OverlayVpn

namespace Disk

/-! ## Directories -/

/-- Whether there is a directory at a place. -/
def isDirectoryAt (d : Disk) (place : Place) : Bool :=
  match d.node? place with
  | some (.directory _) => true
  | _ => false

theorem isDirectoryAt_iff {d : Disk} {place : Place} :
    d.isDirectoryAt place = true ↔ ∃ mode, d.node? place = some (.directory mode) := by
  unfold isDirectoryAt
  split
  · next mode hnode => simp [hnode]
  · next hnode =>
      simp only [Bool.false_eq_true, false_iff, not_exists]
      exact hnode

theorem isDirectoryAt_eq_false_iff {d : Disk} {place : Place} :
    d.isDirectoryAt place = false ↔ ∀ mode, d.node? place ≠ some (.directory mode) := by
  rw [← Bool.not_eq_true, isDirectoryAt_iff, not_exists]

theorem isDirectoryAt_of_nothing {d : Disk} {place : Place} (h : d.node? place = none) :
    d.isDirectoryAt place = false := by
  rw [isDirectoryAt, h]

theorem KeepsDirectories.isDirectoryAt {d d' : Disk} (h : KeepsDirectories d d') {place : Place}
    (hdir : d.isDirectoryAt place = true) : d'.isDirectoryAt place = true := by
  obtain ⟨mode, hnode⟩ := isDirectoryAt_iff.mp hdir
  exact isDirectoryAt_iff.mpr (h.directory place mode hnode)

/-! ## Following names -/

theorem placeFrom_append (place : Place) (names more : List String) :
    placeFrom place (names ++ more) = placeFrom (placeFrom place names) more :=
  List.foldl_append

/-- Names that do not climb lead down. -/
theorem placeFrom_of_descends {names : List String} (h : ".." ∉ names) (place : Place) :
    placeFrom place names = place ++ names := by
  induction names generalizing place with
  | nil => exact (List.append_nil place).symm
  | cons name names ih =>
      have hname : name ≠ ".." := fun heq => h (heq ▸ List.mem_cons_self)
      rw [placeFrom, List.foldl_cons, if_neg hname, ← placeFrom,
        ih fun hmem => h (List.mem_cons_of_mem _ hmem), List.append_assoc]
      rfl

/-- Names that can be followed have directories on the way. -/
theorem isDirectoryAt_of_follow {d : Disk} {place found : Place} {names : List String}
    (h : d.follow place names = .ok found) {front rest : List String} {name : String}
    (hnames : names = front ++ name :: rest) :
    d.isDirectoryAt (placeFrom place front) = true := by
  induction front generalizing place names with
  | nil =>
      subst hnames
      simp only [List.nil_append, follow] at h
      split at h
      · cases h
      · cases h
      · next mode hnode => exact isDirectoryAt_iff.mpr ⟨mode, hnode⟩
  | cons first front ih =>
      subst hnames
      simp only [List.cons_append, follow] at h
      split at h
      · cases h
      · cases h
      · exact ih h rfl

/-- Where there is a directory or nothing at each place on the way, the names are followed to their
end or to what is missing. -/
theorem follow_of_way {d : Disk} {place : Place} {names : List String}
    (h : ∀ front name rest, names = front ++ name :: rest →
      d.isDirectoryAt (placeFrom place front) = true ∨ d.node? (placeFrom place front) = none) :
    d.follow place names = .ok (placeFrom place names) ∨
      d.follow place names = .error .noEntry := by
  induction names generalizing place with
  | nil => exact Or.inl rfl
  | cons name names ih =>
      rcases h [] name names rfl with hdir | hnone
      · obtain ⟨mode, hnode⟩ := isDirectoryAt_iff.mp hdir
        rw [placeFrom, List.foldl_nil] at hnode
        simp only [follow, hnode]
        refine ih fun front name' rest hnames => ?_
        exact h (name :: front) name' rest (by rw [hnames]; rfl)
      · rw [placeFrom, List.foldl_nil] at hnone
        exact Or.inr (by simp only [follow, hnone])

theorem follow_of_directories {d : Disk} {place : Place} {names : List String}
    (h : ∀ front name rest, names = front ++ name :: rest →
      d.isDirectoryAt (placeFrom place front) = true) :
    d.follow place names = .ok (placeFrom place names) := by
  induction names generalizing place with
  | nil => rfl
  | cons name names ih =>
      obtain ⟨mode, hnode⟩ := isDirectoryAt_iff.mp (h [] name names rfl)
      rw [placeFrom, List.foldl_nil] at hnode
      simp only [follow, hnode]
      refine ih fun front name' rest hnames => ?_
      exact h (name :: front) name' rest (by rw [hnames]; rfl)

/-- Names that lead to nothing break off at a place where nothing is. -/
theorem follow_noEntry {d : Disk} {place : Place} {names : List String}
    (h : d.follow place names = .error .noEntry) :
    ∃ front rest, names = front ++ rest ∧ d.follow place front = .ok (placeFrom place front) ∧
      d.node? (placeFrom place front) = none := by
  induction names generalizing place with
  | nil => cases h
  | cons name names ih =>
      simp only [follow] at h
      split at h
      · next hnone => exact ⟨[], name :: names, rfl, rfl, hnone⟩
      · cases h
      · next mode hnode =>
          obtain ⟨front, rest, hnames, hfollow, hnone⟩ := ih h
          refine ⟨name :: front, rest, by rw [hnames]; rfl, ?_, hnone⟩
          simp only [follow, hnode]
          exact hfollow

/-! ## The way of a replacement -/

/-- A place is on the way to the directory of a path's sibling, which is that of the file. -/
def OnWay (d : Disk) (p : Path) (place : Place) : Prop :=
  ∃ front, front <+: p.folderNames ∧ place = placeFrom (d.start p) front

theorem start_tempSibling (d : Disk) (p : Path) : d.start p.tempSibling = d.start p := by
  rw [start, start, Path.isAbsolute_tempSibling]

/-- The sibling is in the last directory of the way. -/
theorem placeOf_tempSibling_eq (d : Disk) (p : Path) :
    ∃ name, d.placeOf p.tempSibling = placeFrom (d.start p) p.folderNames ++ [name] := by
  obtain ⟨name, hnames, hup⟩ := p.names_tempSibling_eq
  refine ⟨name, ?_⟩
  rw [placeOf, start_tempSibling, hnames, placeFrom_concat _ _ hup]

/-- A file is in the last directory of the way. -/
theorem placeOf_eq_concat {d : Disk} {p : Path} {name : String} (h : p.fileName? = some name) :
    d.placeOf p = placeFrom (d.start p) p.folderNames ++ [name] := by
  obtain ⟨hnames, hup⟩ := Path.names_eq_folderNames h
  rw [placeOf, hnames, placeFrom_concat _ _ hup]

theorem onWay_start (d : Disk) (p : Path) : OnWay d p (d.start p) :=
  ⟨[], List.nil_prefix, rfl⟩

theorem onWay_folder (d : Disk) (p : Path) : OnWay d p (placeFrom (d.start p) p.folderNames) :=
  ⟨p.folderNames, List.prefix_refl _, rfl⟩

theorem KeepsDirectories.onWay {d d' : Disk} (h : KeepsDirectories d d') {p : Path}
    {place : Place} : OnWay d' p place ↔ OnWay d p place := by rw [OnWay, OnWay, h.start_eq]

/-- The way to a file is clear: it has directories, and nothing where one is missing; the places of
the file and of its sibling are not missing directories of the way; and the file is missing or can
be read. No file is at the empty path, and none can be put there. -/
structure Clear (d : Disk) (p : Path) : Prop where
  start : d.isDirectoryAt (d.start p) = true
  way : ∀ place, OnWay d p place → d.isDirectoryAt place = true ∨
    d.node? place = none ∧ place ≠ d.placeOf p ∧ place ≠ d.placeOf p.tempSibling
  target : p.isEmpty = true ∨ d.node? (d.placeOf p) = none ∨ ∃ bytes, d.read p = .ok bytes

/-- A path that is not empty leads to nothing or to a file that can be read. -/
theorem Clear.target_cases {d : Disk} {p : Path} (h : Clear d p) (hempty : p.isEmpty = false) :
    d.node? (d.placeOf p) = none ∨ ∃ bytes, d.read p = .ok bytes :=
  h.target.resolve_left (by simp [hempty])

/-- No directory is in the file's place. -/
theorem Clear.not_directory {d : Disk} {p : Path} (h : Clear d p) (hempty : p.isEmpty = false) :
    d.isDirectoryAt (d.placeOf p) = false := by
  rcases h.target_cases hempty with hnone | ⟨bytes, hread⟩
  · exact isDirectoryAt_of_nothing hnone
  · obtain ⟨mode, hfile⟩ := node?_of_read hread
    rw [isDirectoryAt, hfile]

/-- A path that a replacement may have for its file ends in a file's name. -/
theorem Clear.fileName {d : Disk} {p : Path} (h : Clear d p) (hempty : p.isEmpty = false) :
    ∃ name, p.fileName? = some name := by
  cases hname : p.fileName? with
  | some name => exact ⟨name, rfl⟩
  | none =>
      -- the path would be that of a directory on the way
      have hplace : placeFrom (d.start p) p.folderNames = d.placeOf p := by
        rw [placeOf, Path.folderNames_of_fileName_none hname]
      rcases h.way _ (onWay_folder d p) with hdir | ⟨-, hne, -⟩
      · rw [hplace, h.not_directory hempty] at hdir
        cases hdir
      · exact absurd hplace hne

/-- What comes before a further name comes before the last name. -/
theorem prefix_of_concat_eq {names front rest : List String} {last name : String}
    (h : names ++ [last] = front ++ name :: rest) : front <+: names := by
  rcases List.prefix_concat_iff.mp ⟨name :: rest, h.symm⟩ with hall | hprefix
  · have hlength := congrArg List.length h
    rw [hall] at hlength
    simp at hlength
  · exact hprefix

/-- The places before the end of a file's path are on the way. -/
theorem onWay_of_names {d : Disk} {p : Path} {name last : String} {front rest : List String}
    (hlast : p.fileName? = some last) (hnames : p.names = front ++ name :: rest) :
    OnWay d p (placeFrom (d.start p) front) := by
  have hsplit := (Path.names_eq_folderNames hlast).1
  exact ⟨front, prefix_of_concat_eq (hsplit.symm.trans hnames), rfl⟩

/-- **A path that leads to nothing is missing.** -/
theorem read_of_missing {d : Disk} {p : Path} (h : Clear d p)
    (hnone : p.isEmpty = true ∨ d.node? (d.placeOf p) = none) :
    d.read p = .error .noEntry := by
  rw [read_eq_noEntry_iff]
  by_cases hempty : p.isEmpty = true
  · exact Or.inl hempty
  · obtain ⟨last, hlast⟩ := h.fileName (by simpa using hempty)
    have hplace := hnone.resolve_left hempty
    have hway : ∀ front name rest, p.names = front ++ name :: rest →
        d.isDirectoryAt (placeFrom (d.start p) front) = true ∨
          d.node? (placeFrom (d.start p) front) = none := by
      intro front name rest hnames
      exact (h.way _ (onWay_of_names hlast hnames)).imp_right And.left
    rcases follow_of_way hway with hfollow | hfollow
    · exact Or.inr (Or.inr ⟨_, hfollow, hplace⟩)
    · exact Or.inr (Or.inl hfollow)

/-- **Whoever can read a file has found its way clear.** -/
theorem clear_of_read {d : Disk} {p : Path} {bytes : List UInt8} (h : d.read p = .ok bytes) :
    Clear d p := by
  obtain ⟨place, mode, hresolve, hnode⟩ := read_eq_ok_iff.mp h
  obtain ⟨-, hfollow, hdir⟩ := resolve_eq_ok_iff.mp hresolve
  obtain ⟨last, hlast⟩ := Path.exists_fileName (hdir _ _ hnode)
  have hnames := (Path.names_eq_folderNames hlast).1
  -- all places on the way come before the end of the path
  have hway : ∀ place, OnWay d p place → d.isDirectoryAt place = true := by
    rintro place ⟨front, ⟨rest, hfront⟩, rfl⟩
    cases hrest : rest ++ [last] with
    | nil => simp at hrest
    | cons name more =>
        have hsplit : p.names = front ++ name :: more := by
          rw [hnames, ← hfront, List.append_assoc, hrest]
        exact isDirectoryAt_of_follow hfollow hsplit
  exact {
    start := hway _ (onWay_start d p)
    way := fun place hplace => Or.inl (hway place hplace)
    target := Or.inr (Or.inr ⟨bytes, h⟩) }

/-! ## Files that are missing -/

/-- Everything on a disk is in a directory, and relative paths start at one. -/
structure Rooted (d : Disk) : Prop where
  inDirectory : ∀ place name, d.node? (place ++ [name]) ≠ none → d.isDirectoryAt place = true
  workingDirectory : d.isDirectoryAt d.workingDirectory = true

/-- Each `..` of a path leads out of a directory that is there. -/
def Grounded (d : Disk) (p : Path) : Prop :=
  ∀ front rest, p.names = front ++ ".." :: rest →
    ∃ place, d.follow (d.start p) front = .ok place ∧ d.isDirectoryAt place = true

theorem Rooted.start {d : Disk} (h : Rooted d) (p : Path) : d.isDirectoryAt (d.start p) = true := by
  unfold Disk.start
  split
  · rfl
  · exact h.workingDirectory

/-- Nothing is below a place where nothing is. -/
theorem Rooted.none_below {d : Disk} (h : Rooted d) {place : Place} (hnone : d.node? place = none)
    (names : List String) : d.node? (place ++ names) = none := by
  induction names generalizing place with
  | nil => rwa [List.append_nil]
  | cons name names ih =>
      have hnext : d.node? (place ++ [name]) = none := by
        by_contra hsome
        cases (isDirectoryAt_of_nothing hnone).symm.trans (h.inDirectory place name hsome)
      simpa using ih hnext

/-- The directory that holds something is there. -/
theorem Rooted.parent {d : Disk} (h : Rooted d) {place : Place}
    (hdir : d.isDirectoryAt place = true) : d.isDirectoryAt place.dropLast = true := by
  rcases List.eq_nil_or_concat place with rfl | ⟨front, name, rfl⟩
  · exact hdir
  · rw [List.concat_eq_append] at hdir ⊢
    rw [List.dropLast_concat]
    refine h.inDirectory front name ?_
    obtain ⟨mode, hnode⟩ := isDirectoryAt_iff.mp hdir
    simp [hnode]

theorem OnlyLoses.rooted {d d' : Disk} (h : OnlyLoses d d') (hrooted : Rooted d) : Rooted d' where
  inDirectory place name hsome :=
    h.isDirectoryAt (hrooted.inDirectory place name fun hnone => hsome (h.nothing _ hnone))
  workingDirectory := by
    rw [h.workingDirectory_eq]
    exact h.isDirectoryAt hrooted.workingDirectory

theorem KeepsDirectories.grounded {d d' : Disk} (h : KeepsDirectories d d') {p : Path}
    (hgrounded : Grounded d p) : Grounded d' p := by
  intro front rest hnames
  obtain ⟨place, hfollow, hdir⟩ := hgrounded front rest hnames
  rw [h.start_eq]
  exact ⟨place, h.follow hfollow, h.isDirectoryAt hdir⟩

/-- Names break off at a place where nothing is, and do not climb from there on. -/
structure BreaksOff (d : Disk) (p : Path) (front rest : List String) : Prop where
  names_eq : p.names = front ++ rest
  follow : d.follow (d.start p) front = .ok (placeFrom (d.start p) front)
  nothing : d.node? (placeFrom (d.start p) front) = none
  descends : ".." ∉ rest

theorem breaksOff_of_noEntry {d : Disk} {p : Path} (hgrounded : Grounded d p)
    (h : d.read p = .error .noEntry) (hempty : p.isEmpty = false) :
    ∃ front rest, BreaksOff d p front rest := by
  have hbreak : ∃ front rest, p.names = front ++ rest ∧
      d.follow (d.start p) front = .ok (placeFrom (d.start p) front) ∧
      d.node? (placeFrom (d.start p) front) = none := by
    rcases read_eq_noEntry_iff.mp h with htrue | hfollow | ⟨place, hfollow, hnone⟩
    · rw [hempty] at htrue
      cases htrue
    · exact follow_noEntry hfollow
    · obtain rfl := follow_eq_placeFrom hfollow
      exact ⟨p.names, [], (List.append_nil _).symm, hfollow, hnone⟩
  obtain ⟨front, rest, hnames, hfollow, hnone⟩ := hbreak
  refine ⟨front, rest, hnames, hfollow, hnone, fun hup => ?_⟩
  -- a name that climbs would have had to get past the place where nothing is
  obtain ⟨before, after, rfl⟩ := List.append_of_mem hup
  obtain ⟨place, hbefore, hdir⟩ := hgrounded (front ++ before) after (by
    rw [hnames, List.append_assoc])
  have hthere : d.isDirectoryAt (placeFrom (d.start p) front) = true := by
    cases before with
    | nil =>
        rw [List.append_nil] at hbefore
        rwa [← follow_eq_placeFrom hbefore]
    | cons name before => exact isDirectoryAt_of_follow hbefore rfl
  cases (isDirectoryAt_of_nothing hnone).symm.trans hthere

/-- A path that breaks off ends in a file's name: if it ended in `..` it would lead to a
directory. -/
theorem BreaksOff.fileName {d : Disk} {p : Path} {front rest : List String}
    (h : BreaksOff d p front rest) (hrooted : Rooted d) : ∃ name, p.fileName? = some name := by
  cases hname : p.fileName? with
  | some name => exact ⟨name, rfl⟩
  | none =>
      exfalso
      have hnothing := isDirectoryAt_of_nothing h.nothing
      have hnames := h.names_eq
      rcases Path.names_of_fileName_none hname with hnil | ⟨before, hup⟩
      · obtain ⟨rfl, -⟩ := List.append_eq_nil_iff.mp (hnames.symm.trans hnil)
        cases hnothing.symm.trans (hrooted.start p)
      · -- the last name climbs, so that nothing comes after the break
        have hrest : rest = [] := by
          by_contra hne
          have hlast : rest.getLast hne = ".." := by
            have hboth := congrArg List.getLast? (hnames.symm.trans hup)
            rw [List.getLast?_append, List.getLast?_eq_some_getLast hne, List.getLast?_concat]
              at hboth
            exact Option.some.inj hboth
          exact h.descends (hlast ▸ List.getLast_mem hne)
        rw [hrest, List.append_nil] at hnames
        have hfront : front = before ++ [".."] := hnames.symm.trans hup
        have hdir := hrooted.parent (isDirectoryAt_of_follow h.follow hfront)
        rw [hfront, placeFrom_append] at hnothing
        cases hnothing.symm.trans hdir

/-- The places from the break on are empty, and each is above what comes after it. -/
theorem BreaksOff.below {d : Disk} {p : Path} {front middle back : List String}
    (h : BreaksOff d p front (middle ++ back)) (hrooted : Rooted d) :
    placeFrom (d.start p) (front ++ middle) = placeFrom (d.start p) front ++ middle ∧
      d.node? (placeFrom (d.start p) (front ++ middle)) = none := by
  have hplace :
      placeFrom (d.start p) (front ++ middle) = placeFrom (d.start p) front ++ middle := by
    rw [placeFrom_append,
      placeFrom_of_descends fun hup => h.descends (List.mem_append_left _ hup)]
  rw [hplace]
  exact ⟨rfl, hrooted.none_below h.nothing middle⟩

/-- A beginning of a path that breaks off stops before the break or goes on after it. -/
theorem BreaksOff.beginning {d : Disk} {p : Path} {front rest names : List String}
    (h : BreaksOff d p front rest) (hnames : names <+: p.names) :
    (∃ name more, front = names ++ name :: more) ∨ ∃ middle, names = front ++ middle := by
  have hfront : front <+: p.names := ⟨rest, h.names_eq.symm⟩
  rcases List.prefix_or_prefix_of_prefix hnames hfront with ⟨more, hmore⟩ | ⟨middle, hmiddle⟩
  · cases more with
    | nil => exact Or.inr ⟨[], by rw [← hmore, List.append_nil, List.append_nil]⟩
    | cons name more => exact Or.inl ⟨name, more, hmore.symm⟩
  · exact Or.inr ⟨middle, hmiddle.symm⟩

theorem clear_of_breaksOff {d : Disk} {p : Path} {front rest : List String}
    (h : BreaksOff d p front rest) (hrooted : Rooted d) : Clear d p := by
  obtain ⟨last, hlast⟩ := h.fileName hrooted
  obtain ⟨temp, htemp⟩ := placeOf_tempSibling_eq d p
  have hfile := placeOf_eq_concat (d := d) hlast
  have hnames := (Path.names_eq_folderNames hlast).1
  refine ⟨hrooted.start p, ?_, Or.inr (Or.inl ?_)⟩
  · rintro place ⟨names, ⟨tail, htail⟩, rfl⟩
    have hbeginning : names <+: p.names :=
      ⟨tail ++ [last], by rw [hnames, ← htail, List.append_assoc]⟩
    rcases h.beginning hbeginning with ⟨name, more, hmore⟩ | ⟨middle, rfl⟩
    · exact Or.inl (isDirectoryAt_of_follow h.follow hmore)
    · have hrest : rest = middle ++ (tail ++ [last]) := by
        have hsame := h.names_eq.symm.trans hnames
        rw [← htail] at hsame
        simpa using hsame
      obtain ⟨hplace, hnone⟩ := BreaksOff.below (hrest ▸ h) hrooted
      -- the file and its sibling are farther down
      have hbreak : BreaksOff d p front ((middle ++ tail) ++ [last]) := by
        rwa [List.append_assoc, ← hrest]
      have hfolder := (hbreak.below hrooted).1
      rw [← List.append_assoc, htail] at hfolder
      refine Or.inr ⟨hnone, ?_, ?_⟩ <;> intro heq <;> have hlength := congrArg List.length heq
      · rw [hfile, hplace, hfolder] at hlength
        simp at hlength
      · rw [htemp, hplace, hfolder] at hlength
        simp at hlength
  · have hbreak : BreaksOff d p front (rest ++ []) := by rwa [List.append_nil]
    have hend := (hbreak.below hrooted).2
    rwa [← h.names_eq] at hend

/-- **The way to a file that is missing is clear**, unless a `..` leads out of a directory that is
missing itself. -/
theorem clear_of_noEntry {d : Disk} {p : Path} (hrooted : Rooted d) (hgrounded : Grounded d p)
    (h : d.read p = .error .noEntry) : Clear d p := by
  by_cases hempty : p.isEmpty = true
  · refine ⟨hrooted.start p, ?_, Or.inl hempty⟩
    rintro place ⟨names, hnames, rfl⟩
    rw [Path.folderNames_of_isEmpty hempty, List.prefix_nil] at hnames
    subst hnames
    exact Or.inl (hrooted.start p)
  · obtain ⟨front, rest, hbreak⟩ := breaksOff_of_noEntry hgrounded h (by simpa using hempty)
    exact clear_of_breaksOff hbreak hrooted

theorem grounded_of_descends {p : Path} (h : ".." ∉ p.names) (d : Disk) : Grounded d p := by
  intro front rest hnames
  exact absurd (hnames ▸ List.mem_append_right _ List.mem_cons_self) h

/-! ## A disk to try files on -/

/-- A disk on which there is one directory, with failures in store. -/
def oneDirectory (failures : List (Option DiskFailure)) : Disk :=
  { nodes := [(["state"], .directory 0o700)], failures }

theorem rooted_oneDirectory (failures : List (Option DiskFailure)) :
    Rooted (oneDirectory failures) where
  inDirectory place name hsome := by
    have hplace : place ++ [name] = ["state"] := by
      by_contra hne
      have hlookup : (place ++ [name] == ["state"]) = false := beq_eq_false_iff_ne.mpr hne
      simp [oneDirectory, node?, List.lookup_cons, hlookup] at hsome
    obtain ⟨rfl, -⟩ := List.append_eq_singleton_iff.mp hplace |>.resolve_right (by simp)
    rfl
  workingDirectory := rfl

end Disk

end OverlayVpn
