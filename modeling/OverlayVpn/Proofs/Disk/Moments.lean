import OverlayVpn.Proofs.Disk.Crash

set_option autoImplicit false

/-! # A replacement, moment by moment

A moment of a replacement (`moments`) is the disk before or after one of its steps, together with
the places of the files that hold bytes which the replacement has written. At the last moment the
disk is the one that the replacement leaves (`getLast?_moments`), and at every moment the machine
may stop (`interrupted_of_mem_moments`). -/

namespace OverlayVpn

namespace Disk

/-! ## Moments -/

/-- A moment of a replacement. -/
structure Moment where
  disk : Disk
  /-- The places of the files that hold bytes which the replacement has written. -/
  holding : List Place := []
  deriving DecidableEq

/-- The files that hold bytes after a step from one disk to another; `done` says that the step has
not failed. -/
def Effect.holdingAfter (before after : Disk) (done : Bool) (places : List Place) :
    Effect → List Place
  | .write file _ =>
    -- a step that fails may have written some of its bytes
    if after.node? (before.placeOf file) = before.node? (before.placeOf file) then places
    else before.placeOf file :: places
  | .rename source target =>
    if done then
      (places.filter (· ≠ before.placeOf target)).map fun place =>
        if place = before.placeOf source then before.placeOf target else place
    else places
  | .openTruncated file | .remove file =>
    if done then places.filter (· ≠ before.placeOf file) else places
  | .ensureDirectory _ | .sync _ | .makePrivate _ => places

namespace Moment

/-- Performs a step. -/
def perform (m : Moment) (e : Effect) : Except OsError Unit × Moment :=
  let performed := m.disk.perform e
  (performed.1,
    { disk := performed.2
      holding := e.holdingAfter m.disk performed.2 performed.1.isOk m.holding })

/-- Performs steps up to the first that fails. -/
def performAll (m : Moment) : List Effect → Except OsError Unit × Moment
  | [] => (.ok (), m)
  | e :: rest =>
    match m.perform e with
    | (.ok (), m) => performAll m rest
    | failed => failed

/-- The moments before and after each step, up to the first that fails. -/
def trail (m : Moment) : List Effect → List Moment
  | [] => [m]
  | e :: rest =>
    match m.perform e with
    | (.ok (), next) => m :: trail next rest
    | (.error _, next) => [m, next]

end Moment

/-- The moments of a replacement. -/
def moments (d : Disk) (file : Path) (contents : List UInt8) : List Moment :=
  let start : Moment := { disk := d }
  match start.performAll (directorySteps file) with
  | (.error _, _) => start.trail (directorySteps file)
  | (.ok (), made) =>
    start.trail (directorySteps file) ++ made.trail (contentSteps file contents) ++
      match made.performAll (contentSteps file contents) with
      | (.ok (), _) => []
      | (.error _, failed) => [(failed.perform (.remove file.tempSibling)).2]

/-! ## Moments are what a replacement goes through -/

namespace Moment

theorem perform_eq {m m' : Moment} {e : Effect} {result : Except OsError Unit}
    (h : m.perform e = (result, m')) :
    m.disk.perform e = (result, m'.disk) ∧
      m'.holding = e.holdingAfter m.disk m'.disk result.isOk m.holding := by
  obtain ⟨rfl, rfl⟩ := Prod.mk.inj h
  exact ⟨rfl, rfl⟩

theorem performAll_eq (m : Moment) (steps : List Effect) :
    (m.performAll steps).1 = (m.disk.performAll steps).1 ∧
      (m.performAll steps).2.disk = (m.disk.performAll steps).2 := by
  induction steps generalizing m with
  | nil => exact ⟨rfl, rfl⟩
  | cons e steps ih =>
      rw [performAll, Disk.performAll]
      cases hperform : m.disk.perform e with
      | mk result disk =>
          simp only [perform, hperform]
          cases result with
          | error error => exact ⟨rfl, rfl⟩
          | ok u => exact ih _

theorem getLast?_trail (m : Moment) (steps : List Effect) :
    (m.trail steps).getLast? = some (m.performAll steps).2 := by
  induction steps generalizing m with
  | nil => rfl
  | cons e steps ih =>
      rw [performAll, trail]
      cases hperform : m.perform e with
      | mk result next =>
          cases result with
          | error error => rfl
          | ok u => rw [List.getLast?_cons, ih next]; rfl

theorem exists_of_performAll_cons {m : Moment} {e : Effect} {steps : List Effect}
    (h : (m.performAll (e :: steps)).1 = .ok ()) :
    ∃ next, m.perform e = (.ok (), next) ∧ (next.performAll steps).1 = .ok () := by
  rw [performAll] at h
  cases hperform : m.perform e with
  | mk result next =>
      rw [hperform] at h
      cases result with
      | error error => cases h
      | ok u => exact ⟨next, rfl, h⟩

theorem mem_trail_self (m : Moment) (steps : List Effect) : m ∈ m.trail steps := by
  cases steps with
  | nil => exact List.mem_singleton_self m
  | cons e steps =>
      rw [trail]
      split <;> exact List.mem_cons_self

theorem mem_trail_cons_iff {m m' : Moment} {e : Effect} {steps : List Effect} :
    m' ∈ m.trail (e :: steps) ↔
      m' = m ∨ (∃ error, m.perform e = (.error error, m')) ∨
        ∃ next, m.perform e = (.ok (), next) ∧ m' ∈ next.trail steps := by
  rw [trail]
  cases hperform : m.perform e with
  | mk result next => cases result <;> simp [eq_comm]

/-- The moment after the first step is one of them. -/
theorem perform_mem_trail (m : Moment) (e : Effect) (steps : List Effect) :
    (m.perform e).2 ∈ m.trail (e :: steps) := by
  rw [mem_trail_cons_iff]
  cases hperform : m.perform e with
  | mk result next =>
      cases result with
      | error error => exact Or.inr (Or.inl ⟨error, rfl⟩)
      | ok u => exact Or.inr (Or.inr ⟨next, rfl, next.mem_trail_self steps⟩)

/-- The machine may stop at each moment. -/
theorem halted_of_mem_trail {m m' : Moment} {steps : List Effect} (h : m' ∈ m.trail steps) :
    Halted m.disk steps m'.disk := by
  induction steps generalizing m with
  | nil =>
      obtain rfl := List.mem_singleton.mp h
      exact .here _ _
  | cons e steps ih =>
      rcases mem_trail_cons_iff.mp h with rfl | ⟨error, hfailed⟩ | ⟨next, hdone, hmem⟩
      · exact .here _ _
      · obtain ⟨hresult, rfl⟩ := Prod.mk.inj hfailed
        exact .failed (Prod.ext hresult rfl)
      · obtain ⟨hresult, rfl⟩ := Prod.mk.inj hdone
        exact .past (Prod.ext hresult rfl) (ih hmem)

end Moment

/-- A moment comes while directories are made, while the contents are put into place, or after the
sibling was removed because that failed. -/
theorem mem_moments_iff {d : Disk} {file : Path} {contents : List UInt8} {m : Moment} :
    m ∈ d.moments file contents ↔
      m ∈ Moment.trail { disk := d } (directorySteps file) ∨
        ∃ made, Moment.performAll { disk := d } (directorySteps file) = (.ok (), made) ∧
          (m ∈ made.trail (contentSteps file contents) ∨
            ∃ error failed, made.performAll (contentSteps file contents) = (.error error, failed) ∧
              m = (failed.perform (.remove file.tempSibling)).2) := by
  rw [moments]
  cases hdirectory : Moment.performAll { disk := d } (directorySteps file) with
  | mk result made =>
      cases result with
      | error error => simp
      | ok u =>
          cases hcontent : made.performAll (contentSteps file contents) with
          | mk result last =>
              cases result with
              | error error => simp [hcontent]
              | ok u => simp [hcontent]

/-- A replacement that succeeds has performed all its steps. -/
theorem exists_made_of_replace {d : Disk} {file : Path} {contents : List UInt8}
    (h : (d.replace file contents).1 = .ok ()) :
    ∃ made, Moment.performAll { disk := d } (directorySteps file) = (.ok (), made) ∧
      (made.performAll (contentSteps file contents)).1 = .ok () := by
  have hdirectory := Moment.performAll_eq { disk := d } (directorySteps file)
  cases hmade : Moment.performAll { disk := d } (directorySteps file) with
  | mk result made =>
      rw [hmade] at hdirectory
      obtain ⟨hresult, hdisk⟩ := hdirectory
      rw [replace, ← Prod.eta (d.performAll _), ← hresult, ← hdisk] at h
      cases result with
      | error error => cases h
      | ok u =>
          refine ⟨made, rfl, ?_⟩
          rw [(Moment.performAll_eq made _).1]
          dsimp only at h
          split at h
          · next hdone => rw [hdone]
          · cases h

/-- **The last moment is the end.** -/
theorem getLast?_moments (d : Disk) (file : Path) (contents : List UInt8) :
    (d.moments file contents).getLast?.map (·.disk) = some (d.replace file contents).2 := by
  have hdirectory := Moment.performAll_eq { disk := d } (directorySteps file)
  rw [moments, replace]
  cases hmade : Moment.performAll { disk := d } (directorySteps file) with
  | mk result made =>
      rw [hmade] at hdirectory
      obtain ⟨hresult, hdisk⟩ := hdirectory
      cases result with
      | error error =>
          rw [← Prod.eta (d.performAll _), ← hresult, ← hdisk]
          simp [Moment.getLast?_trail, hmade]
      | ok u =>
          have hcontent := Moment.performAll_eq made (contentSteps file contents)
          rw [← Prod.eta (d.performAll _), ← hresult, ← hdisk]
          cases hlast : made.performAll (contentSteps file contents) with
          | mk result last =>
              rw [hlast] at hcontent
              obtain ⟨hresult', hdisk'⟩ := hcontent
              dsimp only
              rw [← Prod.eta (made.disk.performAll _), ← hresult', ← hdisk']
              cases result with
              | error error => simp [hlast, Moment.perform]
              | ok u => simp [Moment.getLast?_trail, hlast]

/-- **The machine may stop at every moment.** -/
theorem interrupted_of_mem_moments {d : Disk} {file : Path} {contents : List UInt8} {m : Moment}
    (h : m ∈ d.moments file contents) : d.Interrupted file contents m.disk := by
  rcases mem_moments_iff.mp h with hmem | ⟨made, hmade, hmem | ⟨error, failed, hfailed, rfl⟩⟩
  · exact .during ((Moment.halted_of_mem_trail hmem).append _)
  · obtain ⟨hresult, hdisk⟩ := Moment.performAll_eq { disk := d } (directorySteps file)
    rw [hmade] at hresult hdisk
    have hdirectory : d.performAll (directorySteps file) = (.ok (), made.disk) :=
      Prod.ext hresult.symm hdisk.symm
    exact .during (halted_after hdirectory (Moment.halted_of_mem_trail hmem))
  · -- nothing comes after the removal
    have hlast := getLast?_moments d file contents
    have hmoments : d.moments file contents = Moment.trail { disk := d } (directorySteps file) ++
        made.trail (contentSteps file contents) ++
          [(failed.perform (.remove file.tempSibling)).2] := by
      simp only [moments, hmade, hfailed]
    rw [hmoments, List.getLast?_concat] at hlast
    rw [Option.map_some, Option.some.injEq] at hlast
    rw [hlast]
    exact .done

/-! ## Steps that write nothing -/

/-- Whether a step writes to a file. -/
def Effect.writes : Effect → Bool
  | .write .. => true
  | _ => false

namespace Moment

/-- A step that writes nothing leaves no file with bytes of the replacement where there was none. -/
theorem holding_perform_of_nil {m : Moment} {e : Effect} (hwrites : e.writes = false)
    (h : m.holding = []) : (m.perform e).2.holding = [] := by
  cases e <;> simp_all [perform, Effect.holdingAfter, Effect.writes]

theorem holding_trail_of_nil {m m' : Moment} {steps : List Effect}
    (hwrites : ∀ e ∈ steps, e.writes = false) (h : m.holding = []) (hmem : m' ∈ m.trail steps) :
    m'.holding = [] := by
  induction steps generalizing m with
  | nil =>
      obtain rfl := List.mem_singleton.mp hmem
      exact h
  | cons e steps ih =>
      have hnext := holding_perform_of_nil (hwrites e List.mem_cons_self) h
      rcases mem_trail_cons_iff.mp hmem with rfl | ⟨error, hfailed⟩ | ⟨next, hdone, hmem⟩
      · exact h
      · rwa [hfailed] at hnext
      · rw [hdone] at hnext
        exact ih (fun e he => hwrites e (List.mem_cons_of_mem _ he)) hnext hmem

theorem holding_performAll_of_nil {m : Moment} {steps : List Effect}
    (hwrites : ∀ e ∈ steps, e.writes = false) (h : m.holding = []) :
    (m.performAll steps).2.holding = [] :=
  holding_trail_of_nil hwrites h (List.mem_of_getLast? (m.getLast?_trail steps))

end Moment

end Disk

end OverlayVpn
