import OverlayVpn.Proofs.Disk.Replace

set_option autoImplicit false

/-! # What a replacement answers

Where the way to a file is clear, a replacement meets no obstacle but three: the failures in store,
a directory in the sibling's place, and a path that no file can have (`replace_outcome`). What else
is on the disk does not matter, so that two disks that are alike in these things answer every
replacement alike, and stay alike (`Alike.replace`). -/

namespace OverlayVpn

namespace Disk

/-! ## Steps and their verdicts -/

/-- The outcome of steps that would end with `verdicts` on their own: each uses up an entry of the
failures in store, and the first failure ends them. -/
def outcome : List (Option DiskFailure) → List (Except OsError Unit) →
    Except OsError Unit × List (Option DiskFailure)
  | failures, [] => (.ok (), failures)
  | failures, verdict :: verdicts =>
    match failures.head?.join, verdict with
    | some failure, _ => (.error failure.error, failures.tail)
    | none, .error e => (.error e, failures.tail)
    | none, .ok () => outcome failures.tail verdicts

/-- What is seen of steps from outside, apart from the disk's contents. -/
def seen (x : Except OsError Unit × Disk) : Except OsError Unit × List (Option DiskFailure) :=
  (x.1, x.2.failures)

theorem failures_makeDirectories {mode : Nat} {names : List String} {d d' : Disk} {place : Place}
    (h : d.makeDirectories mode place names = .ok d') : d'.failures = d.failures := by
  induction names generalizing d place with
  | nil =>
      obtain rfl := Except.ok.inj h
      rfl
  | cons name names ih =>
      unfold makeDirectories at h
      dsimp only at h
      split at h
      · exact ih h
      · cases h
      · exact (ih h).trans rfl

theorem failures_apply {d d' : Disk} {e : Effect} (h : e.apply d = .ok d') :
    d'.failures = d.failures := by
  cases e with
  | ensureDirectory dir =>
      simp only [Effect.apply] at h
      split at h
      · obtain rfl := Except.ok.inj h
        rfl
      · exact failures_makeDirectories h
      · cases h
  | openTruncated file =>
      obtain ⟨-, -, -, rfl⟩ := truncated_cases h
      rfl
  | write file bytes =>
      obtain ⟨contents, mode, -, -, rfl⟩ := appended_cases h
      rfl
  | sync file =>
      obtain rfl := Except.ok.inj h
      rfl
  | makePrivate file =>
      obtain ⟨-, ⟨contents, old, -, rfl⟩ | ⟨old, -, rfl⟩⟩ := permitted_cases h <;> rfl
  | rename source target =>
      obtain ⟨node, -, -, -, -, rfl⟩ := renamed_cases h
      rfl
  | remove file =>
      obtain ⟨-, rfl⟩ := removed_cases h
      rfl

/-- A step uses up one entry of the failures in store. -/
theorem failures_perform (d : Disk) (e : Effect) :
    (d.perform e).2.failures = d.failures.tail := by
  rcases perform_cases d e with heq | happly | ⟨written, part, -, happly⟩
  · rw [heq]
  · exact failures_apply happly
  · exact failures_apply happly

/-- Steps have their outcome when the first one has its verdict and the others have theirs where it
leaves off. -/
theorem outcome_cons {d : Disk} {e : Effect} {steps : List Effect}
    {verdict : Except OsError Unit} {verdicts : List (Except OsError Unit)}
    (herror : ∀ error, verdict = .error error →
      e.apply { d with failures := d.failures.tail } = .error error)
    (hok : verdict = .ok () → ∃ d', e.apply { d with failures := d.failures.tail } = .ok d' ∧
      seen (d'.performAll steps) = outcome d'.failures verdicts) :
    seen (d.performAll (e :: steps)) = outcome d.failures (verdict :: verdicts) := by
  have hspent := failures_perform d e
  unfold performAll outcome
  cases hhead : d.failures.head?.join with
  | some failure =>
      have hresult : (d.perform e).1 = .error failure.error := by simp only [perform, hhead]
      cases hperform : d.perform e with
      | mk result d' =>
          rw [hperform] at hresult hspent
          subst hresult
          exact congrArg _ hspent
  | none =>
      cases verdict with
      | error error =>
          have hperform : d.perform e = (.error error, { d with failures := d.failures.tail }) := by
            simp only [perform, hhead, herror error rfl]
          simp only [hperform, seen]
      | ok u =>
          obtain ⟨d', happly, hrest⟩ := hok rfl
          have hperform : d.perform e = (.ok (), d') := by simp only [perform, hhead, happly]
          simp only [hperform, hrest, failures_apply happly]

/-! ## Directories that are made -/

/-- Directories are made where there are directories or nothing. -/
theorem makeDirectories_of_way {names : List String} {d : Disk} {place : Place} (mode : Nat)
    (hplace : d.isDirectoryAt place = true)
    (h : ∀ front, front <+: names →
      d.isDirectoryAt (placeFrom place front) = true ∨ d.node? (placeFrom place front) = none) :
    ∃ d', d.makeDirectories mode place names = .ok d' ∧ KeepsDirectories d d' ∧
      ∀ front, front <+: names → d'.isDirectoryAt (placeFrom place front) = true := by
  induction names generalizing d place with
  | nil =>
      refine ⟨d, rfl, .refl d, fun front hfront => ?_⟩
      obtain rfl := List.prefix_nil.mp hfront
      exact hplace
  | cons name names ih =>
      -- the place of the next name
      generalize hnext : (if name = ".." then place.dropLast else place ++ [name]) = next
      have hstep (front : List String) :
          placeFrom place (name :: front) = placeFrom next front := by
        rw [placeFrom, List.foldl_cons, hnext]
        rfl
      have hrest (front : List String) (hfront : front <+: names) :
          d.isDirectoryAt (placeFrom next front) = true ∨
            d.node? (placeFrom next front) = none := by
        have hway := h (name :: front) (List.cons_prefix_cons.mpr ⟨rfl, hfront⟩)
        rwa [hstep] at hway
      have hdone {d' : Disk} (hkeeps : KeepsDirectories d d')
          (hmade : ∀ front, front <+: names → d'.isDirectoryAt (placeFrom next front) = true) :
          ∀ front, front <+: name :: names → d'.isDirectoryAt (placeFrom place front) = true := by
        intro front hfront
        rcases List.prefix_cons_iff.mp hfront with rfl | ⟨more, rfl, hmore⟩
        · exact hkeeps.isDirectoryAt hplace
        · rw [hstep]
          exact hmade more hmore
      have hcase : d.isDirectoryAt next = true ∨ d.node? next = none := hrest [] List.nil_prefix
      simp only [makeDirectories, hnext]
      rcases hcase with hdir | hnone
      · obtain ⟨old, hnode⟩ := isDirectoryAt_iff.mp hdir
        obtain ⟨d', hmake, hkeeps, hmade⟩ := ih hdir hrest
        exact ⟨d', by simp only [hnode, hmake], hkeeps, hdone hkeeps hmade⟩
      · have hput : KeepsDirectories d (d.put next (.directory mode)) :=
          keepsDirectories_put (Or.inl ⟨mode, rfl⟩)
        have hthere := isDirectoryAt_put_directory hnone mode
        have hafter : ∀ front, front <+: names →
            (d.put next (.directory mode)).isDirectoryAt (placeFrom next front) = true ∨
              (d.put next (.directory mode)).node? (placeFrom next front) = none := by
          intro front hfront
          by_cases hsame : placeFrom next front = next
          · exact Or.inl (by rw [hsame, hthere])
          · rw [isDirectoryAt, node?_put_of_ne hsame]
            exact hrest front hfront
        obtain ⟨d', hmake, hkeeps, hmade⟩ := ih hthere hafter
        have hall := hput.trans hkeeps
        exact ⟨d', by simp only [hnone, hmake], hall, hdone hall hmade⟩

/-! ## A way that is made -/

/-- The way is clear, and all its directories are there. -/
structure Ready (d : Disk) (p : Path) : Prop extends Clear d p where
  made : ∀ place, OnWay d p place → d.isDirectoryAt place = true

theorem Prepares.ready {p : Path} {d d' : Disk} (h : Prepares p d d') (hready : Ready d p) :
    Ready d' p where
  toClear := h.clear hready.toClear
  made place hway := h.isDirectoryAt (hready.made place (h.toKeepsDirectories.onWay.mp hway))

theorem Ready.follow {d : Disk} {p : Path} (h : Ready d p) {names : List String} {name : String}
    (hnames : names = p.folderNames ++ [name]) :
    d.follow (d.start p) names = .ok (placeFrom (d.start p) names) := by
  refine follow_of_directories fun front other rest hsplit => h.made _ ⟨front, ?_, rfl⟩
  exact prefix_of_concat_eq (hnames.symm.trans hsplit)

theorem Ready.resolve_tempSibling {d : Disk} {p : Path} (h : Ready d p) :
    d.resolve p.tempSibling = .ok (d.placeOf p.tempSibling) := by
  obtain ⟨name, hnames, -⟩ := p.names_tempSibling_eq
  have hfile := Path.namesDirectory_tempSibling p
  refine resolve_eq_ok_iff.mpr ⟨Path.isEmpty_of_not_namesDirectory hfile, ?_, fun _ _ _ => hfile⟩
  rw [placeOf, start_tempSibling]
  exact h.follow hnames

theorem Ready.resolve_file {d : Disk} {p : Path} (h : Ready d p) (hempty : p.isEmpty = false) :
    d.resolve p = .ok (d.placeOf p) := by
  obtain ⟨name, hname⟩ := h.fileName hempty
  refine resolve_eq_ok_iff.mpr ⟨hempty, h.follow (Path.names_eq_folderNames hname).1, ?_⟩
  intro contents mode hnode
  rcases h.target_cases hempty with hnone | ⟨bytes, hread⟩
  · cases hnone.symm.trans hnode
  · obtain ⟨place, mode', hresolve, hfile⟩ := read_eq_ok_iff.mp hread
    exact (resolve_eq_ok_iff.mp hresolve).2.2 bytes mode' hfile

/-- A directory with directories or nothing on the way to it is there with all of them, or is
missing. -/
theorem find_of_way {d : Disk} {dir : Path} (hempty : dir.isEmpty = false)
    (h : ∀ front, front <+: dir.names →
      d.isDirectoryAt (placeFrom (d.start dir) front) = true ∨
        d.node? (placeFrom (d.start dir) front) = none) :
    ((∃ found, d.find dir = .ok found) ∧
        ∀ front, front <+: dir.names → d.isDirectoryAt (placeFrom (d.start dir) front) = true) ∨
      d.find dir = .error .noEntry := by
  have hway (front : List String) (name : String) (rest : List String)
      (hnames : dir.names = front ++ name :: rest) := h front ⟨name :: rest, hnames.symm⟩
  rcases follow_of_way hway with hfollow | hfollow
  · rcases h dir.names (List.prefix_refl _) with hdir | hnone
    · obtain ⟨mode, hnode⟩ := isDirectoryAt_iff.mp hdir
      refine Or.inl ⟨⟨_, find_eq_ok_iff.mpr ⟨?_, hnode⟩⟩, ?_⟩
      · exact resolve_eq_ok_iff.mpr ⟨hempty, hfollow, by simp [hnode]⟩
      · rintro front ⟨rest, hrest⟩
        cases rest with
        | nil => rwa [← hrest, List.append_nil] at hdir
        | cons name rest => exact isDirectoryAt_of_follow hfollow hrest.symm
    · have hresolve := resolve_eq_ok_iff.mpr ⟨hempty, hfollow, by simp [hnone]⟩
      refine Or.inr ?_
      simp only [find, hresolve, bind, Except.bind, hnone]
      rfl
  · refine Or.inr ?_
    simp only [find, resolve, hempty, hfollow, bind, Except.bind]
    rfl

/-- The steps before the contents make the way, and nothing hinders them. -/
theorem ready_of_ensureDirectory {d : Disk} {p parent : Path} (h : Clear d p)
    (hparent : p.parent? = some parent) (hempty : parent.isEmpty = false) :
    ∃ d', (Effect.ensureDirectory parent).apply d = .ok d' ∧ Ready d' p := by
  have hnonempty : p.isEmpty = false := by
    by_contra htrue
    rw [Path.parent_of_isEmpty (by simpa using htrue)] at hparent
    cases hparent
  obtain ⟨name, hname⟩ := h.fileName hnonempty
  have hfolder := Path.folderNames_of_parent hname hparent
  have hstart := start_parent hparent hempty d
  have hway (front : List String) (hfront : front <+: parent.names) :
      d.isDirectoryAt (placeFrom (d.start parent) front) = true ∨
        d.node? (placeFrom (d.start parent) front) = none :=
    (h.way _ (onWay_parent hparent hempty hfront)).imp_right And.left
  have happly : ∃ d', (Effect.ensureDirectory parent).apply d = .ok d' ∧
      ∀ front, front <+: parent.names →
        d'.isDirectoryAt (placeFrom (d.start parent) front) = true := by
    rcases find_of_way hempty hway with ⟨⟨found, hfind⟩, hmade⟩ | hfind
    · exact ⟨d, by simp only [Effect.apply, hfind], hmade⟩
    · have hroot : d.isDirectoryAt (d.start parent) = true := by rw [hstart, h.start]
      obtain ⟨d', hmake, -, hmade⟩ := makeDirectories_of_way directoryMode hroot hway
      exact ⟨d', by simp only [Effect.apply, hfind, hmake], hmade⟩
  obtain ⟨d', happly, hmade⟩ := happly
  have hprepares := prepares_apply (e := .ensureDirectory parent) ⟨hparent, hempty⟩ happly
  refine ⟨d', happly, hprepares.clear h, ?_⟩
  rintro place ⟨front, hfront, rfl⟩
  rw [hprepares.start_eq, ← hstart]
  exact hmade front (hfolder ▸ hfront)

/-- A file that no directory has to be made for has its way made. -/
theorem ready_of_no_directorySteps {d : Disk} {p : Path} (h : Clear d p)
    (hsteps : directorySteps p = []) : Ready d p := by
  refine ⟨h, ?_⟩
  have hfolder : p.folderNames = [] := by
    cases hempty : p.isEmpty with
    | true => exact Path.folderNames_of_isEmpty hempty
    | false =>
        obtain ⟨name, hname⟩ := h.fileName hempty
        obtain ⟨parent, hends⟩ := Path.endsIn_of_fileName hname
        rw [Path.folderNames_of_parent hname hends.parent_eq]
        refine Path.names_of_isEmpty ?_
        simpa [directorySteps, hends.parent_eq] using hsteps
  rintro place ⟨front, hfront, rfl⟩
  rw [hfolder, List.prefix_nil] at hfront
  subst hfront
  exact h.start

/-! ## The verdicts -/

/-- The sibling can be opened, unless a directory is in its place. -/
def openVerdict (blocked : Bool) : Except OsError Unit :=
  if blocked then .error .isDirectory else .ok ()

/-- A file can be put at a path, unless that is empty or asks for a directory. -/
def renameVerdict (p : Path) : Except OsError Unit :=
  if p.isEmpty then .error .noEntry
  else if p.namesDirectory then .error .notDirectory
  else .ok ()

theorem Ready.open_blocked {d : Disk} {p : Path} (h : Ready d p)
    (hdir : d.isDirectoryAt (d.placeOf p.tempSibling) = true) :
    (Effect.openTruncated p.tempSibling).apply d = .error .isDirectory := by
  obtain ⟨mode, hnode⟩ := isDirectoryAt_iff.mp hdir
  simp only [Effect.apply, truncated, h.resolve_tempSibling, bind, Except.bind, hnode]
  rfl

theorem Ready.open_ok {d : Disk} {p : Path} (h : Ready d p)
    (hdir : d.isDirectoryAt (d.placeOf p.tempSibling) = false) :
    ∃ d', (Effect.openTruncated p.tempSibling).apply d = .ok d' := by
  simp only [Effect.apply, truncated, h.resolve_tempSibling, bind, Except.bind]
  cases hnode : d.node? (d.placeOf p.tempSibling) with
  | some node =>
      cases node with
      | file contents mode => exact ⟨_, rfl⟩
      | directory mode => exact absurd hnode (isDirectoryAt_eq_false_iff.mp hdir mode)
  | none =>
      -- the directory of the sibling is the last of the way
      obtain ⟨name, hplace⟩ := placeOf_tempSibling_eq d p
      obtain ⟨mode, hfolder⟩ := isDirectoryAt_iff.mp (h.made _ (onWay_folder d p))
      simp only [Path.namesDirectory_tempSibling, hplace, List.dropLast_concat, hfolder]
      exact ⟨_, rfl⟩

/-- The way is made and the sibling is a file. -/
structure Opened (d : Disk) (p : Path) : Prop extends Ready d p where
  sibling : ∃ bytes, d.read p.tempSibling = .ok bytes

theorem Ready.spent {d : Disk} {p : Path} (h : Ready d p) :
    Ready { d with failures := d.failures.tail } p :=
  (Prepares.failures p d d.failures.tail).ready h

theorem Opened.spent {d : Disk} {p : Path} (h : Opened d p) :
    Opened { d with failures := d.failures.tail } p := by
  obtain ⟨bytes, hread⟩ := h.sibling
  exact ⟨h.toReady.spent, bytes, read_spent hread⟩

theorem Opened.find {d : Disk} {p : Path} (h : Opened d p) :
    ∃ contents mode, d.find p.tempSibling = .ok (d.placeOf p.tempSibling, .file contents mode) := by
  obtain ⟨bytes, hread⟩ := h.sibling
  obtain ⟨mode, hnode⟩ := node?_of_read hread
  exact ⟨bytes, mode, find_eq_ok_iff.mpr ⟨h.resolve_tempSibling, hnode⟩⟩

theorem Opened.write {d : Disk} {p : Path} (h : Opened d p) (bytes : List UInt8) :
    ∃ d', (Effect.write p.tempSibling bytes).apply d = .ok d' ∧ Opened d' p := by
  obtain ⟨contents, mode, hfind⟩ := h.find
  obtain ⟨old, hread⟩ := h.sibling
  have happly : ∃ d', d.appended bytes p.tempSibling = .ok d' := by
    simp only [appended, hfind, bind, Except.bind]
    exact ⟨_, rfl⟩
  obtain ⟨d', happly⟩ := happly
  have hprepares := prepares_apply (e := .write p.tempSibling bytes) rfl happly
  exact ⟨d', happly, hprepares.ready h.toReady, _, read_appended hread happly⟩

theorem Opened.makePrivate {d : Disk} {p : Path} (h : Opened d p) :
    ∃ d', (Effect.makePrivate p.tempSibling).apply d = .ok d' ∧ Opened d' p := by
  obtain ⟨contents, mode, hfind⟩ := h.find
  obtain ⟨old, hread⟩ := h.sibling
  have happly : ∃ d', d.permitted privateMode p.tempSibling = .ok d' := by
    simp only [permitted, hfind, bind, Except.bind]
    exact ⟨_, rfl⟩
  obtain ⟨d', happly⟩ := happly
  have hprepares := prepares_apply (e := .makePrivate p.tempSibling) rfl happly
  exact ⟨d', happly, hprepares.ready h.toReady, _, read_permitted hread happly⟩

/-- What is found is renamed where no directory is in the way. -/
theorem renamed_of_found {d : Disk} {source target : Path} {from' to' : Place} {node : Node}
    (hsource : d.find source = .ok (from', node)) (htarget : d.resolve target = .ok to')
    (hdir : d.isDirectoryAt to' = false) :
    d.renamed source target =
      if target.namesDirectory then .error .notDirectory
      else .ok ((d.drop from').put to' node) := by
  simp only [renamed, hsource, htarget, bind, Except.bind]
  cases hnode : d.node? to' with
  | none => rfl
  | some found =>
      cases found with
      | file contents mode => rfl
      | directory mode => exact absurd hnode (isDirectoryAt_eq_false_iff.mp hdir mode)

/-- The path alone decides whether the sibling can be renamed. -/
theorem Opened.rename {d : Disk} {p : Path} (h : Opened d p) :
    (∃ error, renameVerdict p = .error error ∧
        (Effect.rename p.tempSibling p).apply d = .error error) ∨
      renameVerdict p = .ok () ∧ ∃ d', (Effect.rename p.tempSibling p).apply d = .ok d' := by
  obtain ⟨contents, mode, hfind⟩ := h.find
  unfold renameVerdict
  cases hempty : p.isEmpty with
  | true =>
      refine Or.inl ⟨.noEntry, rfl, ?_⟩
      simp only [Effect.apply, renamed, hfind, resolve, hempty, bind, Except.bind]
      rfl
  | false =>
      have hrenamed := renamed_of_found hfind (h.resolve_file hempty) (h.not_directory hempty)
      cases hnames : p.namesDirectory with
      | true =>
          exact Or.inl ⟨.notDirectory, rfl, by simp only [Effect.apply, hrenamed, hnames]; rfl⟩
      | false => exact Or.inr ⟨rfl, _, by simp only [Effect.apply, hrenamed, hnames]; rfl⟩

/-! ## The outcome of a replacement -/

theorem Opened.outcome_cons {d : Disk} {p : Path} {e : Effect} {steps : List Effect}
    {verdicts : List (Except OsError Unit)} (h : Opened d p)
    (hnext : ∀ d, Opened d p → ∃ d', e.apply d = .ok d' ∧ Opened d' p)
    (hrest : ∀ d, Opened d p → seen (d.performAll steps) = outcome d.failures verdicts) :
    seen (d.performAll (e :: steps)) = outcome d.failures (.ok () :: verdicts) := by
  obtain ⟨d', happly, hopened⟩ := hnext _ h.spent
  exact Disk.outcome_cons (fun _ herror => by cases herror)
    fun _ => ⟨d', happly, hrest d' hopened⟩

theorem Opened.outcome_rename {d : Disk} {p : Path} (h : Opened d p) :
    seen (d.performAll [.rename p.tempSibling p]) = outcome d.failures [renameVerdict p] := by
  rcases h.spent.rename with ⟨error, hverdict, happly⟩ | ⟨hverdict, d', happly⟩
  · rw [hverdict]
    exact Disk.outcome_cons (fun _ heq => by cases heq; exact happly) fun heq => by cases heq
  · rw [hverdict]
    exact Disk.outcome_cons (fun _ heq => by cases heq) fun _ => ⟨d', happly, rfl⟩

/-- The verdicts of the steps that put new contents into a file's place. -/
def contentVerdicts (p : Path) (blocked : Bool) : List (Except OsError Unit) :=
  [openVerdict blocked, .ok (), .ok (), .ok (), renameVerdict p]

theorem Ready.outcome_contentSteps {d : Disk} {p : Path} (h : Ready d p)
    (contents : List UInt8) :
    seen (d.performAll (contentSteps p contents)) =
      outcome d.failures (contentVerdicts p (d.isDirectoryAt (d.placeOf p.tempSibling))) := by
  have hspent := h.spent
  have hsame : isDirectoryAt { d with failures := d.failures.tail }
      (placeOf { d with failures := d.failures.tail } p.tempSibling) =
        d.isDirectoryAt (d.placeOf p.tempSibling) := rfl
  refine Disk.outcome_cons (fun error herror => ?_) fun hverdict => ?_
  · cases hblocked : d.isDirectoryAt (d.placeOf p.tempSibling) with
    | true =>
        simp only [hblocked, openVerdict, if_true, Except.error.injEq] at herror
        subst herror
        exact hspent.open_blocked (hsame.trans hblocked)
    | false => simp [hblocked, openVerdict] at herror
  · cases hblocked : d.isDirectoryAt (d.placeOf p.tempSibling) with
    | true => simp [hblocked, openVerdict] at hverdict
    | false =>
        obtain ⟨d', happly⟩ := hspent.open_ok (hsame.trans hblocked)
        have hprepares := prepares_apply (e := .openTruncated p.tempSibling) rfl happly
        have hopened : Opened d' p := ⟨hprepares.ready hspent, [], read_truncated happly⟩
        refine ⟨d', happly, hopened.outcome_cons (fun d h => h.write contents) fun d h => ?_⟩
        refine h.outcome_cons (fun d h => ⟨d, rfl, h⟩) fun d h => ?_
        exact h.outcome_cons (fun d h => h.makePrivate) fun d h => h.outcome_rename

/-- The outcome of a replacement, of the failures in store, of whether a directory is in the
sibling's place, and of the path. -/
def replaceOutcome (p : Path) (blocked : Bool) (failures : List (Option DiskFailure)) :
    Except OsError Unit × List (Option DiskFailure) :=
  match outcome failures ((directorySteps p).map fun _ => .ok ()) with
  | (.error e, failures) => (.error e, failures)
  | (.ok (), failures) =>
    match outcome failures (contentVerdicts p blocked) with
    | (.ok (), failures) => (.ok (), failures)
    -- the removal of the sibling uses up one more
    | (.error e, failures) => (.error e, failures.tail)

/-- The steps that make the directory fail of failures in store alone, and else the way is made. -/
theorem Clear.outcome_directorySteps {d : Disk} {p : Path} (h : Clear d p) :
    seen (d.performAll (directorySteps p)) =
        outcome d.failures ((directorySteps p).map fun _ => .ok ()) ∧
      ((d.performAll (directorySteps p)).1 = .ok () →
        Ready (d.performAll (directorySteps p)).2 p) := by
  by_cases hnone : directorySteps p = []
  · rw [hnone]
    exact ⟨rfl, fun _ => ready_of_no_directorySteps h hnone⟩
  · obtain ⟨parent, hparent, hempty, hsteps⟩ : ∃ parent, p.parent? = some parent ∧
        parent.isEmpty = false ∧ directorySteps p = [.ensureDirectory parent] := by
      unfold directorySteps at hnone ⊢
      split at hnone
      · next parent hparent =>
          split at hnone
          · exact absurd rfl hnone
          · next hempty => exact ⟨parent, hparent, by simpa using hempty, by simp [hempty]⟩
      · exact absurd rfl hnone
    have hclear := (Prepares.failures p d d.failures.tail).clear h
    obtain ⟨d', happly, hready⟩ := ready_of_ensureDirectory hclear hparent hempty
    rw [hsteps]
    refine ⟨Disk.outcome_cons (fun _ heq => by cases heq) fun _ => ⟨d', happly, rfl⟩, fun hok => ?_⟩
    cases hrun : d.performAll [.ensureDirectory parent] with
    | mk result d₂ =>
        rw [hrun] at hok
        subst hok
        obtain ⟨d₁, happly', hdone⟩ := performAll_cons_eq_ok hrun
        obtain rfl := Except.ok.inj (happly.symm.trans happly')
        obtain rfl := (Prod.mk.inj hdone).2
        exact hready

/-- **The outcome of a replacement depends on nothing else.** -/
theorem Clear.replace_outcome {d : Disk} {p : Path} (h : Clear d p) (contents : List UInt8) :
    seen (d.replace p contents) =
      replaceOutcome p (d.isDirectoryAt (d.placeOf p.tempSibling)) d.failures := by
  obtain ⟨hmade, hready⟩ := h.outcome_directorySteps
  have hprepares := prepares_performAll (isPreparation_directorySteps p) d
  unfold replaceOutcome
  rw [← hmade]
  unfold Disk.replace
  cases hdirectory : d.performAll (directorySteps p) with
  | mk result d₁ =>
      rw [hdirectory] at hready hprepares
      cases result with
      | error error => rfl
      | ok u =>
          have hcontent := (hready rfl).outcome_contentSteps contents
          rw [hprepares.sibling_eq h] at hcontent
          simp only [seen]
          rw [← hcontent]
          cases hperformed : d₁.performAll (contentSteps p contents) with
          | mk result d₂ =>
              cases result with
              | ok u => rfl
              | error error => exact Prod.ext rfl (failures_perform d₂ _)

/-! ## Disks that answer alike -/

/-- Whether a directory is in the sibling's place stays as it is. -/
theorem Clear.sibling_replace {d : Disk} {p : Path} (h : Clear d p) (contents : List UInt8) :
    (d.replace p contents).2.isDirectoryAt ((d.replace p contents).2.placeOf p.tempSibling) =
      d.isDirectoryAt (d.placeOf p.tempSibling) := by
  cases hreplace : d.replace p contents with
  | mk result d' =>
      cases result with
      | error error => exact (prepares_replace hreplace).sibling_eq h
      | ok u =>
          -- the sibling was a file, and has been renamed
          obtain ⟨d₁, hprepares, hread, hrename⟩ := replace_eq_ok hreplace
          obtain ⟨node, -, -, -, -, rfl⟩ := renamed_cases hrename
          obtain ⟨mode, hfile⟩ := node?_of_read hread
          have hdir : ∀ mode', d₁.node? (d₁.placeOf p.tempSibling) ≠ some (.directory mode') := by
            simp [hfile]
          have hgone : ((d₁.drop (d₁.placeOf p.tempSibling)).put (d₁.placeOf p) node).node?
              (d₁.placeOf p.tempSibling) = none := by
            rw [node?_put_of_ne (placeOf_tempSibling_ne d₁ p),
              node?_drop_self (ne_nil_of_not_directory hdir)]
          rw [← hprepares.sibling_eq h, isDirectoryAt_eq_false_iff.mpr hdir]
          exact isDirectoryAt_eq_false_iff.mpr fun mode' hnode => by cases hgone.symm.trans hnode

/-- Two disks that replacements of a file do not tell apart. -/
structure Alike (p : Path) (a b : Disk) : Prop where
  left : Clear a p
  right : Clear b p
  failures_eq : a.failures = b.failures
  sibling_eq : a.isDirectoryAt (a.placeOf p.tempSibling) = b.isDirectoryAt (b.placeOf p.tempSibling)
  read_eq : a.read p = b.read p

/-- **Preparations make no difference to later replacements.** -/
theorem Prepares.alike {p : Path} {d d' : Disk} (h : Prepares p d d') (hclear : Clear d p)
    (failures : List (Option DiskFailure)) :
    Alike p { d' with failures } { d with failures } := by
  have hbefore := Prepares.failures p d failures
  have hafter := Prepares.failures p d' failures
  have hall := h.trans hafter
  exact {
    left := hall.clear hclear
    right := hbefore.clear hclear
    failures_eq := rfl
    sibling_eq := (hall.sibling_eq hclear).trans (hbefore.sibling_eq hclear).symm
    read_eq := (hall.read_eq hclear).trans (hbefore.read_eq hclear).symm }

/-- **Disks that are alike answer a replacement alike, and stay alike.** -/
theorem Alike.replace {p : Path} {a b : Disk} (h : Alike p a b) (contents : List UInt8) :
    (a.replace p contents).1 = (b.replace p contents).1 ∧
      Alike p (a.replace p contents).2 (b.replace p contents).2 := by
  have hseen : seen (a.replace p contents) = seen (b.replace p contents) := by
    rw [h.left.replace_outcome, h.right.replace_outcome, h.sibling_eq, h.failures_eq]
  obtain ⟨hresult, hfailures⟩ := Prod.mk.inj hseen
  refine ⟨hresult, {
    left := h.left.replace contents
    right := h.right.replace contents
    failures_eq := hfailures
    sibling_eq := by rw [h.left.sibling_replace, h.right.sibling_replace, h.sibling_eq]
    read_eq := ?_ }⟩
  cases ha : a.replace p contents with
  | mk result a' =>
      cases hb : b.replace p contents with
      | mk result' b' =>
          rw [ha, hb] at hresult
          obtain rfl : result = result' := hresult
          cases result with
          | ok u => rw [read_replace ha, read_replace hb]
          | error error =>
              rw [(prepares_replace ha).read_eq h.left, (prepares_replace hb).read_eq h.right,
                h.read_eq]

end Disk

end OverlayVpn
