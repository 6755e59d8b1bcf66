import OverlayVpn.Proofs.Disk.Replace

set_option autoImplicit false

/-! # Replacements that are cut short

The machine may stop at any moment of a replacement: before a step, after it, or during one that
does its work bit by bit (`Interrupted`). What it leaves is the disk after all the steps, or one on
which no more than preparations were made (`interrupted_cases`), so that the file holds its new
contents or is as it was. The sibling that may be left over is removed by whoever clears up after
the replacement (`read_discardTemp`). -/

namespace OverlayVpn

namespace Disk

/-- What a step has done when the machine stops during it: it has written a part of the bytes, or
made some of the directories. The other steps do their work at once. -/
inductive Effect.Begun (d : Disk) : Effect → Disk → Prop where
  | part {e part : Effect} {written : Nat} {d' : Disk} (hpart : e.part written = some part)
      (happly : part.apply d = .ok d') : Begun d e d'
  | directories {dir : Path} {made : Nat} {d' : Disk} (hmissing : d.find dir = .error .noEntry)
      (hmake : d.makeDirectories directoryMode (d.start dir) (dir.names.take made) = .ok d') :
      Begun d (.ensureDirectory dir) d'

/-- The disks that the machine may leave when it stops while it performs steps. -/
inductive Halted : Disk → List Effect → Disk → Prop where
  /-- It stops before the next step, or after the last. -/
  | here (d : Disk) (steps : List Effect) : Halted d steps d
  /-- It stops during a step. -/
  | amid {d d' : Disk} {e : Effect} {steps : List Effect} (hbegun : e.Begun d d') :
      Halted d (e :: steps) d'
  /-- A step fails, and it stops before anything else is done. -/
  | failed {d d' : Disk} {e : Effect} {steps : List Effect} {error : OsError}
      (hfailed : d.perform e = (.error error, d')) : Halted d (e :: steps) d'
  /-- A step succeeds, and it stops later. -/
  | past {d d' d'' : Disk} {e : Effect} {steps : List Effect}
      (hdone : d.perform e = (.ok (), d')) (hrest : Halted d' steps d'') :
      Halted d (e :: steps) d''

/-- The disks that the machine may leave when it stops while it replaces a file. -/
inductive Interrupted (d : Disk) (file : Path) (contents : List UInt8) : Disk → Prop where
  | during {d' : Disk} (h : Halted d (directorySteps file ++ contentSteps file contents) d') :
      Interrupted d file contents d'
  /-- It stops when all is done, the removal of the sibling after a failure with it. -/
  | done : Interrupted d file contents (d.replace file contents).2

/-! ## Steps that are cut short -/

theorem prepares_begun {file : Path} {d d' : Disk} {e : Effect} (h : e.IsPreparation file)
    (hbegun : e.Begun d d') : Prepares file d d' := by
  cases hbegun with
  | part hpart happly => exact prepares_apply (h.part hpart) happly
  | directories hmissing hmake =>
      refine prepares_makeDirectories (fun front hfront => ?_) hmake
      exact onWay_parent h.1 h.2 (hfront.trans (List.take_prefix _ _))

/-- Steps that prepare have only prepared, wherever they are cut short. -/
theorem prepares_halted {file : Path} {d d' : Disk} {steps : List Effect}
    (hsteps : ∀ e ∈ steps, e.IsPreparation file) (h : Halted d steps d') : Prepares file d d' := by
  induction h with
  | here d steps => exact .refl file d
  | amid hbegun => exact prepares_begun (hsteps _ List.mem_cons_self) hbegun
  | @failed d _ e _ _ hfailed =>
      have hperform := prepares_perform (hsteps e List.mem_cons_self) d
      rwa [hfailed] at hperform
  | @past d _ _ e _ hdone hrest ih =>
      have hperform := prepares_perform (hsteps e List.mem_cons_self) d
      rw [hdone] at hperform
      exact hperform.trans (ih fun e he => hsteps e (List.mem_cons_of_mem _ he))

/-- Steps in two parts are cut short in the one or in the other. -/
theorem halted_append {d d' : Disk} {steps more : List Effect}
    (h : Halted d (steps ++ more) d') :
    Halted d steps d' ∨ ∃ d₁, d.performAll steps = (.ok (), d₁) ∧ Halted d₁ more d' := by
  induction steps generalizing d with
  | nil => exact Or.inr ⟨d, rfl, h⟩
  | cons e steps ih =>
      cases h with
      | here => exact Or.inl (.here _ _)
      | amid hbegun => exact Or.inl (.amid hbegun)
      | failed hfailed => exact Or.inl (.failed hfailed)
      | past hdone hrest =>
          rcases ih hrest with hhalted | ⟨d₁, hall, hhalted⟩
          · exact Or.inl (.past hdone hhalted)
          · exact Or.inr ⟨d₁, by rw [performAll, hdone]; exact hall, hhalted⟩

/-- Whatever would come after the steps that the machine stops during does not matter. -/
theorem Halted.append {d d' : Disk} {steps : List Effect} (h : Halted d steps d')
    (more : List Effect) : Halted d (steps ++ more) d' := by
  induction h with
  | here d steps => exact .here _ _
  | amid hbegun => exact .amid hbegun
  | failed hfailed => exact .failed hfailed
  | past hdone _ ih => exact .past hdone ih

/-- The machine may stop at any moment after steps that have been done. -/
theorem halted_after {d d₁ d' : Disk} {steps more : List Effect}
    (hdone : d.performAll steps = (.ok (), d₁)) (h : Halted d₁ more d') :
    Halted d (steps ++ more) d' := by
  induction steps generalizing d with
  | nil =>
      obtain rfl := (Prod.mk.inj hdone).2
      exact h
  | cons e steps ih =>
      rw [performAll] at hdone
      split at hdone
      · next d₂ hperform => exact .past hperform (ih hdone)
      · next hfailed => exact (hfailed d₁ hdone).elim

/-- A renaming is done or not. -/
theorem halted_rename {file source target : Path} {d d' : Disk}
    (h : Halted d [.rename source target] d') :
    Prepares file d d' ∨ d.performAll [.rename source target] = (.ok (), d') := by
  cases h with
  | here => exact Or.inl (.refl file d)
  | amid hbegun =>
      cases hbegun with
      | part hpart happly => cases hpart
  | failed hfailed =>
      rw [perform_of_error (fun _ => rfl) hfailed]
      exact Or.inl (.failures file d _)
  | past hdone hrest =>
      cases hrest
      exact Or.inr (by rw [performAll, hdone]; rfl)

/-! ## Replacements that are cut short -/

/-- Steps that are all done are a replacement that succeeds. -/
theorem replace_of_performAll {d d₁ d' : Disk} {file : Path} {contents : List UInt8}
    (hdirectory : d.performAll (directorySteps file) = (.ok (), d₁))
    (hcontent : d₁.performAll (contentSteps file contents) = (.ok (), d')) :
    d.replace file contents = (.ok (), d') := by
  simp only [replace, hdirectory, hcontent]

/-- **A replacement that is cut short has only prepared, or it has succeeded.** -/
theorem interrupted_cases {d d' : Disk} {file : Path} {contents : List UInt8}
    (h : Interrupted d file contents d') :
    Prepares file d d' ∨ d.replace file contents = (.ok (), d') := by
  cases h with
  | done =>
      cases hreplace : d.replace file contents with
      | mk result d' =>
          cases result with
          | ok u => exact Or.inr rfl
          | error error => exact Or.inl (prepares_replace hreplace)
  | during hhalted =>
      rcases halted_append hhalted with hhalted | ⟨d₁, hdirectory, hhalted⟩
      · exact Or.inl (prepares_halted (isPreparation_directorySteps file) hhalted)
      · have hway := prepares_performAll (isPreparation_directorySteps file) d
        rw [hdirectory] at hway
        rw [contentSteps_eq] at hhalted
        rcases halted_append hhalted with hhalted | ⟨d₂, hprepared, hhalted⟩
        · exact Or.inl
            (hway.trans (prepares_halted (isPreparation_preparation file contents) hhalted))
        · have hsibling := prepares_performAll (isPreparation_preparation file contents) d₁
          rw [hprepared] at hsibling
          rcases halted_rename hhalted with hprepares | hdone
          · exact Or.inl ((hway.trans hsibling).trans hprepares)
          · refine Or.inr (replace_of_performAll hdirectory ?_)
            rw [contentSteps_eq, performAll_append, hprepared]
            exact hdone

/-- The machine may stop when a part of the contents has been written. -/
theorem interrupted_amid_write {d opened d' : Disk} {file : Path} {contents : List UInt8}
    {written : Nat}
    (hopened : d.performAll (directorySteps file ++ [.openTruncated file.tempSibling]) =
      (.ok (), opened))
    (hwritten : opened.appended (contents.take written) file.tempSibling = .ok d') :
    Interrupted d file contents d' := by
  have hsplit : directorySteps file ++ contentSteps file contents =
      (directorySteps file ++ [.openTruncated file.tempSibling]) ++
        (contentSteps file contents).tail := by
    rw [List.append_assoc]
    rfl
  refine .during ?_
  rw [hsplit]
  exact halted_after hopened (.amid (.part rfl hwritten))

/-! ## Clearing up -/

/-- **No file is left at the sibling's path** when what an interrupted replacement left behind is
removed, unless the removal itself fails. -/
theorem read_discardTemp {d : Disk} (hsound : d.failures.head?.join = none) (file : Path)
    (bytes : List UInt8) : (d.discardTemp file).2.read file.tempSibling ≠ .ok bytes := by
  rw [discardTemp_snd, perform]
  simp only [hsound]
  intro hread
  obtain ⟨mode, hnode⟩ := node?_of_read hread
  cases happly : (Effect.remove file.tempSibling).apply { d with failures := d.failures.tail } with
  | ok d' =>
      obtain ⟨hdir, rfl⟩ := removed_cases happly
      simp only [happly] at hnode
      have hgone :=
        node?_drop_self (ne_nil_of_not_directory hdir) { d with failures := d.failures.tail }
      cases hgone.symm.trans hnode
  | error error =>
      -- a file that can be read can be removed
      simp only [happly] at hread
      obtain ⟨place, mode', hresolve, hfile⟩ := read_eq_ok_iff.mp hread
      simp only [Effect.apply, removed, find_eq_ok_iff.mpr ⟨hresolve, hfile⟩, bind, Except.bind]
        at happly
      cases happly

end Disk

end OverlayVpn
