import OverlayVpn.Proofs.Disk.Moments

set_option autoImplicit false

/-! # Who may read what is being written

The bytes of a replacement are in the sibling until the renaming, and in the file after it. A
sibling that the replacement makes is private from the first byte on, and so is the file; but a
sibling that was left over keeps its permissions until all is written (`inPlace_of_mem_moments`).
`exposed_iff_sibling_left_open` says that this is the one way for the contents to be exposed. -/

namespace OverlayVpn

namespace Disk

/-- Whether nobody but the owner may do anything with a file, and the owner no more than read and
write it. -/
def ownerOnly (mode : Nat) : Bool := mode &&& privateMode == mode

namespace Moment

/-- Whether a file that holds bytes of the replacement is open to others than its owner. -/
def exposes (m : Moment) : Bool :=
  m.holding.any fun place =>
    match m.disk.node? place with
    | some (.file _ mode) => !ownerOnly mode
    | _ => false

/-! ## Steps with a file that holds the bytes -/

/-- The bytes that were written are at no place but one, where there is a file with the given
permissions. -/
structure HoldsAt (m : Moment) (place : Place) (mode : Nat) : Prop where
  file : ∃ bytes, m.disk.node? place = some (.file bytes mode)
  only : ∀ other ∈ m.holding, other = place

theorem HoldsAt.of_mem {m : Moment} {place other : Place} {mode : Nat} (h : m.HoldsAt place mode)
    (hother : other ∈ m.holding) :
    other = place ∧ ∃ bytes, m.disk.node? other = some (.file bytes mode) := by
  obtain rfl := h.only other hother
  exact ⟨rfl, h.file⟩

/-- The bytes are exposed when there are any and the permissions are too wide. -/
theorem HoldsAt.exposes_iff {m : Moment} {place : Place} {mode : Nat} (h : m.HoldsAt place mode) :
    m.exposes = true ↔ m.holding ≠ [] ∧ ownerOnly mode = false := by
  simp only [exposes, List.any_eq_true]
  constructor
  · rintro ⟨other, hother, hopen⟩
    obtain ⟨-, bytes, hnode⟩ := h.of_mem hother
    simp only [hnode, Bool.not_eq_true'] at hopen
    exact ⟨List.ne_nil_of_mem hother, hopen⟩
  · rintro ⟨hsome, hopen⟩
    obtain ⟨other, hother⟩ := List.exists_mem_of_ne_nil _ hsome
    obtain ⟨-, bytes, hnode⟩ := h.of_mem hother
    exact ⟨other, hother, by simp only [hnode, hopen, Bool.not_false]⟩

theorem HoldsAt.ne_nil {m : Moment} {place : Place} {mode : Nat} (h : m.HoldsAt place mode) :
    place ≠ [] := by
  obtain ⟨bytes, hnode⟩ := h.file
  exact ne_nil_of_not_directory (d := m.disk) (by simp [hnode])

/-- A step that fails and cannot be done in part moves nothing. -/
theorem HoldsAt.of_error {m m' : Moment} {place : Place} {mode : Nat} {e : Effect}
    {error : OsError} (h : m.HoldsAt place mode) (hwhole : ∀ written, e.part written = none)
    (hfailed : m.perform e = (.error error, m')) : m'.HoldsAt place mode := by
  obtain ⟨hperform, hholding⟩ := perform_eq hfailed
  have hdisk := perform_of_error hwhole hperform
  refine ⟨by rw [hdisk]; exact h.file, ?_⟩
  rw [hholding]
  cases e with
  | write file bytes => cases hwhole 0
  | _ => exact h.only

/-- Writing leaves a file its permissions, be it that it fails. -/
theorem HoldsAt.write {m : Moment} {place : Place} {file : Path} {mode : Nat}
    (h : m.HoldsAt place mode) (hplace : m.disk.placeOf file = place) (bytes : List UInt8) :
    (m.perform (.write file bytes)).2.HoldsAt place mode := by
  subst hplace
  constructor
  · have happended {bytes : List UInt8} {d' : Disk}
        (happly : Disk.appended bytes { m.disk with failures := m.disk.failures.tail } file =
          .ok d') : ∃ bytes, d'.node? (m.disk.placeOf file) = some (.file bytes mode) := by
      obtain ⟨old, mode', -, hnode', rfl⟩ := appended_cases happly
      obtain ⟨old', hnode⟩ := h.file
      obtain ⟨-, rfl⟩ := Node.file.inj (Option.some.inj (hnode.symm.trans hnode'))
      exact ⟨_, node?_put_self h.ne_nil _ _⟩
    rcases perform_cases m.disk (.write file bytes) with
      heq | happly | ⟨written, part, hpart, happly⟩
    · have hdisk : (m.perform (.write file bytes)).2.disk = _ := heq
      rw [hdisk]
      exact h.file
    · exact happended happly
    · obtain rfl := Option.some.inj hpart
      exact happended happly
  · intro other hother
    simp only [perform, Effect.holdingAfter] at hother
    split at hother
    · exact h.only other hother
    · rcases List.mem_cons.mp hother with rfl | hother
      · rfl
      · exact h.only other hother

theorem HoldsAt.sync {m m' : Moment} {place : Place} {mode : Nat} {file : Path}
    (h : m.HoldsAt place mode) (hdone : m.perform (.sync file) = (.ok (), m')) :
    m'.HoldsAt place mode := by
  obtain ⟨hperform, hholding⟩ := perform_eq hdone
  have hdisk := Except.ok.inj (perform_eq_ok hperform)
  refine ⟨by rw [← hdisk]; exact h.file, ?_⟩
  rw [hholding]
  exact h.only

/-- A file that was made private is private. -/
theorem HoldsAt.makePrivate {m m' : Moment} {place : Place} {file : Path} {mode : Nat}
    (h : m.HoldsAt place mode) (hplace : m.disk.placeOf file = place)
    (hdone : m.perform (.makePrivate file) = (.ok (), m')) : m'.HoldsAt place privateMode := by
  subst hplace
  obtain ⟨hperform, hholding⟩ := perform_eq hdone
  obtain ⟨bytes, hnode⟩ := h.file
  constructor
  · obtain ⟨-, ⟨contents, old, -, hdisk⟩ | ⟨old, hdirectory, -⟩⟩ :=
      permitted_cases (perform_eq_ok hperform)
    · rw [hdisk]
      exact ⟨contents, node?_put_self h.ne_nil _ _⟩
    · cases hnode.symm.trans hdirectory
  · rw [hholding]
    exact h.only

/-- A file that is renamed takes its permissions along. -/
theorem HoldsAt.rename {m m' : Moment} {place : Place} {source target : Path} {mode : Nat}
    (h : m.HoldsAt place mode) (hplace : m.disk.placeOf source = place)
    (hdone : m.perform (.rename source target) = (.ok (), m')) :
    m'.HoldsAt (m.disk.placeOf target) mode := by
  subst hplace
  obtain ⟨hperform, hholding⟩ := perform_eq hdone
  obtain ⟨bytes, hnode⟩ := h.file
  constructor
  · obtain ⟨node, hsource, -, -, hdirectory, hdisk⟩ := renamed_cases (perform_eq_ok hperform)
    obtain rfl := Option.some.inj (hnode.symm.trans hsource)
    rw [hdisk]
    exact ⟨bytes, node?_put_self (ne_nil_of_not_directory hdirectory) _ _⟩
  · intro other hother
    rw [hholding] at hother
    obtain ⟨before, hbefore, rfl⟩ := List.mem_map.mp hother
    exact if_pos (h.only before (List.mem_filter.mp hbefore).1)

/-- A removal takes the bytes away or leaves them as they are. -/
theorem HoldsAt.remove {m : Moment} {place : Place} {mode : Nat} (h : m.HoldsAt place mode)
    (file : Path) :
    (m.perform (.remove file)).2.holding = [] ∨
      (m.perform (.remove file)).2.HoldsAt place mode := by
  cases hperform : m.perform (.remove file) with
  | mk result m' =>
      cases result with
      | error error => exact Or.inr (h.of_error (fun _ => rfl) hperform)
      | ok u =>
          obtain ⟨hperform, hholding⟩ := perform_eq hperform
          obtain ⟨-, hdisk⟩ := removed_cases (perform_eq_ok hperform)
          have honly (other : Place) (hother : other ∈ m'.holding) :
              other = place ∧ other ≠ m.disk.placeOf file := by
            rw [hholding] at hother
            obtain ⟨hbefore, hne⟩ := List.mem_filter.mp hother
            exact ⟨h.only other hbefore, of_decide_eq_true hne⟩
          by_cases hplace : place = m.disk.placeOf file
          · refine Or.inl (List.eq_nil_iff_forall_not_mem.mpr fun other hother => ?_)
            obtain ⟨rfl, hne⟩ := honly other hother
            exact hne hplace
          · refine Or.inr ⟨?_, fun other hother => (honly other hother).1⟩
            rw [hdisk]
            obtain ⟨bytes, hnode⟩ := h.file
            exact ⟨bytes, (node?_drop_of_ne hplace _).trans hnode⟩

/-- A file that bytes were written to holds them. -/
theorem holding_of_write {m m' : Moment} {file : Path} {bytes : List UInt8} (hbytes : bytes ≠ [])
    (hdone : m.perform (.write file bytes) = (.ok (), m')) : m'.holding ≠ [] := by
  obtain ⟨hperform, hholding⟩ := perform_eq hdone
  obtain ⟨old, mode, -, hnode, hdisk⟩ := appended_cases (perform_eq_ok hperform)
  have hroot : m.disk.placeOf file ≠ [] :=
    ne_nil_of_not_directory (d := { m.disk with failures := m.disk.failures.tail })
      (fun _ h => by cases hnode.symm.trans h)
  have hchanged : m'.disk.node? (m.disk.placeOf file) ≠ m.disk.node? (m.disk.placeOf file) := by
    intro hsame
    have hafter : m'.disk.node? (m.disk.placeOf file) = some (.file (old ++ bytes) mode) := by
      rw [hdisk]
      exact node?_put_self hroot _ _
    obtain ⟨hcontents, -⟩ := Node.file.inj
      (Option.some.inj ((hafter.symm.trans hsame).trans hnode))
    exact hbytes (List.append_right_eq_self.mp hcontents)
  rw [hholding]
  simp [Effect.holdingAfter, hchanged]

/-- A file that was opened has the permissions that opening gives it, and nothing is in it. -/
theorem holdsAt_of_open {m m' : Moment} {file : Path} (hnothing : m.holding = [])
    (hdone : m.perform (.openTruncated file) = (.ok (), m')) :
    m'.HoldsAt (m.disk.placeOf file) (m.disk.modeOnOpening privateMode (m.disk.placeOf file)) := by
  obtain ⟨hperform, hholding⟩ := perform_eq hdone
  obtain ⟨-, -, hdirectory, hdisk⟩ := truncated_cases (perform_eq_ok hperform)
  refine ⟨⟨[], ?_⟩, ?_⟩
  · rw [hdisk]
    exact node?_put_self (ne_nil_of_not_directory hdirectory) _ _
  · simp [hholding, hnothing, Effect.holdingAfter]

end Moment

/-! ## The sibling -/

/-- Directories are made where nothing is. -/
theorem node?_makeDirectories {mode : Nat} {names : List String} {d d' : Disk} {place : Place}
    (h : d.makeDirectories mode place names = .ok d') (other : Place) :
    d'.node? other = d.node? other ∨ d'.isDirectoryAt other = true := by
  induction names generalizing d place with
  | nil =>
      obtain rfl := Except.ok.inj h
      exact Or.inl rfl
  | cons name names ih =>
      unfold makeDirectories at h
      dsimp only at h
      split at h
      · exact ih h
      · cases h
      · next hnone =>
          generalize (if name = ".." then place.dropLast else place ++ [name]) = next at h hnone
          rcases ih h with hsame | hdir
          · by_cases hother : other = next
            · subst hother
              rw [isDirectoryAt, hsame]
              exact Or.inr (isDirectoryAt_put_directory hnone mode)
            · exact Or.inl (hsame.trans (node?_put_of_ne hother d _))
          · exact Or.inr hdir

/-- The steps that make directories leave a file as it is. -/
theorem node?_directorySteps {d d' : Disk} {file : Path}
    (h : d.performAll (directorySteps file) = (.ok (), d')) (place : Place) :
    d'.node? place = d.node? place ∨ d'.isDirectoryAt place = true := by
  unfold directorySteps at h
  split at h
  · split at h
    · obtain rfl := (Prod.mk.inj h).2
      exact Or.inl rfl
    · obtain ⟨d₁, happly, hdone⟩ := performAll_cons_eq_ok h
      obtain rfl := (Prod.mk.inj hdone).2
      simp only [Effect.apply] at happly
      split at happly
      · obtain rfl := Except.ok.inj happly
        exact Or.inl rfl
      · exact node?_makeDirectories happly place
      · cases happly
  · obtain rfl := (Prod.mk.inj h).2
    exact Or.inl rfl

theorem Moment.placeOf_of_perform (file : Path) {m m' : Moment} {e : Effect}
    {result : Except OsError Unit} (h : m.perform e = (result, m')) (he : e.IsPreparation file)
    (p : Path) : m'.disk.placeOf p = m.disk.placeOf p := by
  have hprepares := prepares_perform he m.disk
  rw [(Moment.perform_eq h).1] at hprepares
  exact hprepares.placeOf_eq p

/-- What is done with the sibling once it is open. -/
def afterOpening (file : Path) (contents : List UInt8) : List Effect :=
  [.write file.tempSibling contents, .sync file.tempSibling, .makePrivate file.tempSibling,
    .rename file.tempSibling file]

theorem contentSteps_eq_cons (file : Path) (contents : List UInt8) :
    contentSteps file contents =
      .openTruncated file.tempSibling :: afterOpening file contents := rfl

/-- The bytes of a replacement are in the sibling with given permissions, or in one that was made
private, or in the file, which is private. -/
def InPlace (d : Disk) (file : Path) (mode : Nat) (m : Moment) : Prop :=
  m.HoldsAt (d.placeOf file.tempSibling) mode ∨
    m.HoldsAt (d.placeOf file.tempSibling) privateMode ∨ m.HoldsAt (d.placeOf file) privateMode

/-- The sibling keeps its permissions until it is made private, and is renamed after that. -/
theorem inPlace_of_mem_trail {d : Disk} {file : Path} {contents : List UInt8} {opened m : Moment}
    {mode : Nat} (hplace : ∀ p, opened.disk.placeOf p = d.placeOf p)
    (h : opened.HoldsAt (d.placeOf file.tempSibling) mode)
    (hmem : m ∈ opened.trail (afterOpening file contents)) : InPlace d file mode m := by
  have hwritten := h.write (hplace _) contents
  rcases Moment.mem_trail_cons_iff.mp hmem with rfl | ⟨error, hfailed⟩ | ⟨written, hdone, hmem⟩
  · exact Or.inl h
  · rw [hfailed] at hwritten
    exact Or.inl hwritten
  rw [hdone] at hwritten
  have hplace₁ (p : Path) : written.disk.placeOf p = d.placeOf p :=
    (Moment.placeOf_of_perform file hdone rfl p).trans (hplace p)
  rcases Moment.mem_trail_cons_iff.mp hmem with rfl | ⟨error, hfailed⟩ | ⟨synced, hdone, hmem⟩
  · exact Or.inl hwritten
  · exact Or.inl (hwritten.of_error (fun _ => rfl) hfailed)
  have hsynced := hwritten.sync hdone
  have hplace₂ (p : Path) : synced.disk.placeOf p = d.placeOf p :=
    (Moment.placeOf_of_perform file hdone rfl p).trans (hplace₁ p)
  rcases Moment.mem_trail_cons_iff.mp hmem with rfl | ⟨error, hfailed⟩ | ⟨guarded, hdone, hmem⟩
  · exact Or.inl hsynced
  · exact Or.inl (hsynced.of_error (fun _ => rfl) hfailed)
  have hguarded := hsynced.makePrivate (hplace₂ _) hdone
  have hplace₃ (p : Path) : guarded.disk.placeOf p = d.placeOf p :=
    (Moment.placeOf_of_perform file hdone rfl p).trans (hplace₂ p)
  rcases Moment.mem_trail_cons_iff.mp hmem with rfl | ⟨error, hfailed⟩ | ⟨renamed, hdone, hmem⟩
  · exact Or.inr (Or.inl hguarded)
  · exact Or.inr (Or.inl (hguarded.of_error (fun _ => rfl) hfailed))
  have hrenamed := hguarded.rename (hplace₃ _) hdone
  obtain rfl := List.mem_singleton.mp hmem
  rw [hplace₃] at hrenamed
  exact Or.inr (Or.inr hrenamed)

/-! ## Replacements, moment by moment -/

/-- The permissions that the sibling has once it is open. -/
def siblingMode (d : Disk) (file : Path) : Nat :=
  d.modeOnOpening privateMode (d.placeOf file.tempSibling)

/-- A moment at which a replacement has opened the sibling, and has not written to it yet. -/
structure HasOpened (d : Disk) (file : Path) (contents : List UInt8) (m : Moment) : Prop where
  holdsAt : m.HoldsAt (d.placeOf file.tempSibling) (d.siblingMode file)
  nothing : m.holding = []
  placeOf_eq : ∀ p, m.disk.placeOf p = d.placeOf p
  trail : ∀ m' ∈ m.trail (afterOpening file contents), m' ∈ d.moments file contents

theorem writes_directorySteps (file : Path) : ∀ e ∈ directorySteps file, e.writes = false := by
  intro e he
  obtain ⟨dir, rfl, -⟩ := eq_ensureDirectory_of_mem he
  rfl

theorem hasOpened_of_perform {d : Disk} {file : Path} {contents : List UInt8}
    {made opened : Moment}
    (hmade : Moment.performAll { disk := d } (directorySteps file) = (.ok (), made))
    (hopened : made.perform (.openTruncated file.tempSibling) = (.ok (), opened)) :
    HasOpened d file contents opened := by
  obtain ⟨hresult, hdisk⟩ := Moment.performAll_eq { disk := d } (directorySteps file)
  have hnothing := Moment.holding_performAll_of_nil (m := { disk := d })
    (writes_directorySteps file) rfl
  have hprepares := prepares_performAll (isPreparation_directorySteps file) d
  rw [hmade] at hresult hdisk hnothing
  rw [← hdisk] at hprepares
  have hplace := hprepares.placeOf_eq file.tempSibling
  refine ⟨?_, ?_, fun p => ?_, fun m hmem => ?_⟩
  · have hholds := Moment.holdsAt_of_open hnothing hopened
    obtain ⟨-, -, hdirectory, -⟩ := truncated_cases (perform_eq_ok (Moment.perform_eq hopened).1)
    have hmode : made.disk.modeOnOpening privateMode (made.disk.placeOf file.tempSibling) =
        d.siblingMode file := by
      rcases node?_directorySteps (Prod.ext hresult.symm hdisk.symm)
        (made.disk.placeOf file.tempSibling) with hsame | hmadeThere
      · rw [siblingMode, modeOnOpening, modeOnOpening, hsame, hplace]
      · -- what cannot be opened is no directory
        obtain ⟨mode, hnode⟩ := isDirectoryAt_iff.mp hmadeThere
        exact absurd hnode (hdirectory mode)
    rw [hmode, hplace] at hholds
    exact hholds
  · have hnext := Moment.holding_perform_of_nil (e := .openTruncated file.tempSibling) rfl hnothing
    rwa [hopened] at hnext
  · have hnext := Moment.placeOf_of_perform file hopened rfl p
    rw [hnext, hprepares.placeOf_eq]
  · refine mem_moments_iff.mpr (Or.inr ⟨made, hmade, Or.inl ?_⟩)
    rw [contentSteps_eq_cons]
    exact Moment.mem_trail_cons_iff.mpr (Or.inr (Or.inr ⟨opened, hopened, hmem⟩))

/-- Nothing has been written yet, or the sibling was opened and the moment comes after that. -/
theorem cases_of_mem_moments {d : Disk} {file : Path} {contents : List UInt8} {m : Moment}
    (h : m ∈ d.moments file contents) :
    m.holding = [] ∨ ∃ opened, HasOpened d file contents opened ∧
      (m ∈ opened.trail (afterOpening file contents) ∨
        ∃ failed ∈ opened.trail (afterOpening file contents),
          m = (failed.perform (.remove file.tempSibling)).2) := by
  rcases mem_moments_iff.mp h with hmem | ⟨made, hmade, hcontent⟩
  · exact Or.inl (Moment.holding_trail_of_nil (writes_directorySteps file) rfl hmem)
  have hnothing := Moment.holding_performAll_of_nil (m := { disk := d })
    (writes_directorySteps file) rfl
  rw [hmade] at hnothing
  have hopening := Moment.holding_perform_of_nil (e := .openTruncated file.tempSibling) rfl hnothing
  rw [contentSteps_eq_cons] at hcontent
  rcases hcontent with hmem | ⟨error, failed, hfailed, rfl⟩
  · rcases Moment.mem_trail_cons_iff.mp hmem with rfl | ⟨error, hunopened⟩ | ⟨opened, hopened, hmem⟩
    · exact Or.inl hnothing
    · rw [hunopened] at hopening
      exact Or.inl hopening
    · exact Or.inr ⟨opened, hasOpened_of_perform hmade hopened, Or.inl hmem⟩
  · rw [Moment.performAll] at hfailed
    cases hperform : made.perform (.openTruncated file.tempSibling) with
    | mk result opened =>
        rw [hperform] at hfailed hopening
        cases result with
        | error error =>
            obtain ⟨-, rfl⟩ := Prod.mk.inj hfailed
            exact Or.inl (Moment.holding_perform_of_nil rfl hopening)
        | ok u =>
            have hlast := opened.getLast?_trail (afterOpening file contents)
            dsimp only at hfailed
            rw [hfailed] at hlast
            exact Or.inr ⟨opened, hasOpened_of_perform hmade hperform,
              Or.inr ⟨failed, List.mem_of_getLast? hlast, rfl⟩⟩

/-- **Wherever there are bytes of a replacement, they are in their place.** -/
theorem inPlace_of_mem_moments {d : Disk} {file : Path} {contents : List UInt8} {m : Moment}
    (h : m ∈ d.moments file contents) :
    m.holding = [] ∨ InPlace d file (d.siblingMode file) m := by
  rcases cases_of_mem_moments h with hnothing | ⟨opened, hopened, hcontent⟩
  · exact Or.inl hnothing
  have hplaces (m' : Moment) (hmem : m' ∈ opened.trail (afterOpening file contents)) :
      InPlace d file (d.siblingMode file) m' :=
    inPlace_of_mem_trail hopened.placeOf_eq hopened.holdsAt hmem
  rcases hcontent with hmem | ⟨failed, hmem, rfl⟩
  · exact Or.inr (hplaces m hmem)
  · rcases hplaces failed hmem with hold | hguarded | hrenamed
    · exact (hold.remove _).imp_right Or.inl
    · exact (hguarded.remove _).imp_right fun h => Or.inr (Or.inl h)
    · exact (hrenamed.remove _).imp_right fun h => Or.inr (Or.inr h)

/-- **The first bytes are written to a sibling with the permissions that it was opened with.** -/
theorem exists_first_written {d : Disk} {file : Path} {contents : List UInt8} {m : Moment}
    (h : m ∈ d.moments file contents) (hsome : m.holding ≠ []) :
    ∃ written ∈ d.moments file contents, written.holding ≠ [] ∧
      written.HoldsAt (d.placeOf file.tempSibling) (d.siblingMode file) := by
  rcases cases_of_mem_moments h with hnothing | ⟨opened, hopened, hcontent⟩
  · exact absurd hnothing hsome
  have hwritten := hopened.holdsAt.write (hopened.placeOf_eq _) contents
  refine ⟨(opened.perform (.write file.tempSibling contents)).2,
    hopened.trail _ (opened.perform_mem_trail _ _), fun hnothing => ?_, hwritten⟩
  -- if nothing has been written then, nothing is written later
  have hlater (m' : Moment) (hmem : m' ∈ opened.trail (afterOpening file contents)) :
      m'.holding = [] := by
    rcases Moment.mem_trail_cons_iff.mp hmem with rfl | ⟨error, hfailed⟩ | ⟨next, hdone, hmem⟩
    · exact hopened.nothing
    · rwa [hfailed] at hnothing
    · rw [hdone] at hnothing
      exact Moment.holding_trail_of_nil (by simp [Effect.writes]) hnothing hmem
  rcases hcontent with hmem | ⟨failed, hmem, rfl⟩
  · exact hsome (hlater m hmem)
  · exact hsome (Moment.holding_perform_of_nil rfl (hlater failed hmem))

/-- **A replacement that succeeds has written its contents**, unless they are empty. -/
theorem exists_written_of_replace {d : Disk} {file : Path} {contents : List UInt8}
    (h : (d.replace file contents).1 = .ok ()) (hcontents : contents ≠ []) :
    ∃ m ∈ d.moments file contents, m.holding ≠ [] := by
  obtain ⟨made, hmade, hcontent⟩ := exists_made_of_replace h
  obtain ⟨opened, hopened, hrest⟩ := Moment.exists_of_performAll_cons hcontent
  obtain ⟨written, hwritten, -⟩ := Moment.exists_of_performAll_cons hrest
  refine ⟨written, (hasOpened_of_perform hmade hopened).trail _ ?_, ?_⟩
  · have hmem := opened.perform_mem_trail (.write file.tempSibling contents)
      (afterOpening file contents).tail
    rwa [hwritten] at hmem
  · exact Moment.holding_of_write hcontents hwritten

/-- **What is written is exposed in one case only**: a sibling that was left over, with permissions
beyond the owner's reading and writing, keeps them until all is written. Whatever else is on the
disk, whichever step fails and wherever the machine stops, a file that holds bytes of the
replacement is private; the file that is replaced always is. -/
theorem exposed_iff_sibling_left_open (d : Disk) (file : Path) (contents : List UInt8) :
    (d.moments file contents).getLast?.map (·.disk) = some (d.replace file contents).2 ∧
      (∀ m ∈ d.moments file contents, d.Interrupted file contents m.disk) ∧
      (∀ m ∈ d.moments file contents, ∀ place ∈ m.holding, ∃ bytes mode,
        m.disk.node? place = some (.file bytes mode) ∧
          (mode = 0o600 ∧ (place = d.placeOf file.tempSibling ∨ place = d.placeOf file) ∨
            place = d.placeOf file.tempSibling ∧ ∃ old, d.node? place = some (.file old mode))) ∧
      ((∃ m ∈ d.moments file contents, m.exposes = true) ↔
        (∃ m ∈ d.moments file contents, m.holding ≠ []) ∧
          ∃ old mode, d.node? (d.placeOf file.tempSibling) = some (.file old mode) ∧
            ownerOnly mode = false) ∧
      ((d.replace file contents).1 = .ok () → contents ≠ [] →
        ∃ m ∈ d.moments file contents, m.holding ≠ []) := by
  have hmode : d.siblingMode file = 0o600 ∨
      ∃ old, d.node? (d.placeOf file.tempSibling) = some (.file old (d.siblingMode file)) := by
    rw [siblingMode, modeOnOpening]
    split
    · next old mode hnode => exact Or.inr ⟨old, hnode⟩
    · exact Or.inl rfl
  refine ⟨getLast?_moments d file contents, fun _ => interrupted_of_mem_moments,
    fun m hm place hplace => ?_, ⟨?_, ?_⟩, exists_written_of_replace⟩
  · rcases inPlace_of_mem_moments hm with hnothing | hold | hguarded | hrenamed
    · rw [hnothing] at hplace
      cases hplace
    · obtain ⟨rfl, bytes, hnode⟩ := hold.of_mem hplace
      refine ⟨bytes, _, hnode, ?_⟩
      rcases hmode with hnew | hleft
      · exact Or.inl ⟨hnew, Or.inl rfl⟩
      · exact Or.inr ⟨rfl, hleft⟩
    · obtain ⟨rfl, bytes, hnode⟩ := hguarded.of_mem hplace
      exact ⟨bytes, _, hnode, Or.inl ⟨rfl, Or.inl rfl⟩⟩
    · obtain ⟨rfl, bytes, hnode⟩ := hrenamed.of_mem hplace
      exact ⟨bytes, _, hnode, Or.inl ⟨rfl, Or.inr rfl⟩⟩
  · rintro ⟨m, hm, hexposes⟩
    rcases inPlace_of_mem_moments hm with hnothing | hold | hguarded | hrenamed
    · simp [Moment.exposes, hnothing] at hexposes
    · obtain ⟨hsome, hopen⟩ := hold.exposes_iff.mp hexposes
      rcases hmode with hnew | ⟨old, hnode⟩
      · rw [hnew] at hopen
        cases hopen
      · exact ⟨⟨m, hm, hsome⟩, old, _, hnode, hopen⟩
    · cases (hguarded.exposes_iff.mp hexposes).2
    · cases (hrenamed.exposes_iff.mp hexposes).2
  · rintro ⟨⟨m, hm, hsome⟩, old, mode, hnode, hopen⟩
    obtain ⟨written, hwritten, hheld, hholds⟩ := exists_first_written hm hsome
    have hleft : d.siblingMode file = mode := by
      rw [siblingMode, modeOnOpening, hnode]
    rw [hleft] at hholds
    exact ⟨written, hwritten, hholds.exposes_iff.mpr ⟨hheld, hopen⟩⟩

/-- A sibling was left over that only its owner may read: the contents are written to it and are
never exposed. -/
theorem not_exposed_in_private_sibling :
    let file : Path := ⟨["state", "session.json"]⟩
    let disk : Disk :=
      (oneDirectory []).put ["state", "session.json.tmp"] (.file [0x6f, 0x6c, 0x64] 0o400)
    (∃ m ∈ disk.moments file [0x7b, 0x7d], ∃ place ∈ m.holding, ∃ bytes mode,
      m.disk.node? place = some (.file bytes mode) ∧ (mode = 0o600 ∨ mode = 0o400)) ∧
      ¬∃ m ∈ disk.moments file [0x7b, 0x7d], m.exposes = true := by
  intro file disk
  have hsibling : disk.node? (disk.placeOf file.tempSibling) =
      some (.file [0x6f, 0x6c, 0x64] 0o400) := by decide +kernel
  have hreplace : (disk.replace file [0x7b, 0x7d]).1 = .ok () := by decide +kernel
  obtain ⟨-, -, hmodes, hexposed, hwritten⟩ :=
    exposed_iff_sibling_left_open disk file [0x7b, 0x7d]
  obtain ⟨m, hm, hsome⟩ := hwritten hreplace (by decide)
  obtain ⟨place, hplace⟩ := List.exists_mem_of_ne_nil _ hsome
  constructor
  · obtain ⟨bytes, mode, hnode, hcase⟩ := hmodes m hm place hplace
    refine ⟨m, hm, place, hplace, bytes, mode, hnode, ?_⟩
    rcases hcase with ⟨hmode, -⟩ | ⟨rfl, old, hleft⟩
    · exact Or.inl hmode
    · cases hsibling.symm.trans hleft
      exact Or.inr rfl
  · intro hexposes
    obtain ⟨-, old, mode, hleft, hopen⟩ := hexposed.mp hexposes
    cases hsibling.symm.trans hleft
    cases hopen

/-- A sibling was left over that everybody may read: they may read all that is written, until the
sibling is made private, though the replacement succeeds. -/
theorem exposed_in_left_over_sibling :
    let disk : Disk := { nodes := [(["session.json.tmp"], .file [0x6f, 0x6c, 0x64] 0o644)] }
    (disk.replace ⟨["session.json"]⟩ [0x6b, 0x65, 0x79]).1 = .ok () ∧
      ∃ m ∈ disk.moments ⟨["session.json"]⟩ [0x6b, 0x65, 0x79],
        ["session.json.tmp"] ∈ m.holding ∧
          m.disk.node? ["session.json.tmp"] = some (.file [0x6b, 0x65, 0x79] 0o644) := by
  decide +kernel

end Disk

end OverlayVpn
