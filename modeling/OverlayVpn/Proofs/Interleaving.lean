import Mathlib.Data.List.Infix
import Mathlib.Logic.Function.Basic
import OverlayVpn.Proofs.Task

set_option autoImplicit false

/-! # Tasks whose steps interleave

Several callers work at one state, each on a task of its own, and a schedule says whose step comes
next. A task is opaque between its steps; to reason about where a caller stands, its task is
matched with the points of a machine (`Follows`). An invariant of the points and the state that
every step of every caller preserves then holds under every schedule (`interleave_follows`). Where the
state alone matters, it is enough that every step of a task keeps what holds (`keeps_interleave`). -/

namespace OverlayVpn

namespace Task

variable {σ α β π ρ ι : Type}

/-- A task and the state after the task's next step; a task that is done stays as it is. -/
def advance : Task σ α → σ → Task σ α × σ
  | .done a, s => (.done a, s)
  | .step change next, s => (next s, change s)

/-- Lets callers take their steps in the order of a schedule. -/
def interleave [DecidableEq ι] : List ι → (ι → Task σ α) → σ → (ι → Task σ α) × σ
  | [], tasks, s => (tasks, s)
  | i :: schedule, tasks, s =>
    let (task, s) := (tasks i).advance s
    interleave schedule (Function.update tasks i task) s

/-- What a task that is done ended in. -/
def result? : Task σ α → Option α
  | .done a => some a
  | .step .. => none

/-- A task goes through the points of a machine: its next step is the machine's at the point that
it has reached, and it is done where the machine has a result. -/
inductive Follows (step : π → σ → π × σ) (result : π → Option α) : Task σ α → π → Prop where
  | done {a : α} {point : π} (hresult : result point = some a) : Follows step result (.done a) point
  | step {change : σ → σ} {next : σ → Task σ α} {point : π} (hlive : result point = none)
      (hchange : ∀ s, change s = (step point s).2)
      (hnext : ∀ s, Follows step result (next s) (step point s).1) :
      Follows step result (.step change next) point

theorem Follows.result_eq {step : π → σ → π × σ} {result : π → Option α} {t : Task σ α} {point : π}
    {a : α} (h : Follows step result t point) (hdone : t.result? = some a) :
    result point = some a := by
  cases h with
  | done hresult => rw [hresult, ← hdone, result?]
  | step hlive hchange hnext => cases hdone

/-- A task goes through the points of a larger machine as it does through those of a part of it,
also when its result is told otherwise. -/
theorem Follows.embed {step : π → σ → π × σ} {result : π → Option α} {step' : ρ → σ → ρ × σ}
    {result' : ρ → Option β} {t : Task σ α} {point : π} (h : Follows step result t point)
    (place : π → ρ) (tell : α → β)
    (hstep : ∀ point s, step' (place point) s = (place (step point s).1, (step point s).2))
    (hresult : ∀ point, result' (place point) = (result point).map tell) :
    Follows step' result' (t >>= fun a => return tell a) (place point) := by
  induction h with
  | done hdone => exact .done (by rw [hresult, hdone, Option.map_some])
  | step hlive hchange hnext ih =>
      refine .step (by rw [hresult, hlive, Option.map_none]) (fun s => ?_) fun s => ?_
      · rw [hstep, hchange]
      · rw [hstep]
        exact ih s

variable [DecidableEq ι] {step : ι → π → σ → π × σ} {result : π → Option α}
  {holds : (ι → π) → σ → Prop}

/-- **What every step of every caller preserves holds under every schedule**, also when the steps
preserve it in states of a certain kind only, and all states on the way are of this kind. -/
theorem interleave_follows_amid {fine : σ → Prop}
    (hstep : ∀ points s i, fine s → holds points s → result (points i) = none →
      holds (Function.update points i (step i (points i) s).1) (step i (points i) s).2)
    (schedule : List ι) {tasks : ι → Task σ α} {points : ι → π} {s : σ}
    (hfollows : ∀ i, Follows (step i) result (tasks i) (points i))
    (hfine : ∀ earlier, earlier <+: schedule → fine (interleave earlier tasks s).2)
    (hholds : holds points s) :
    ∃ points', (∀ i, Follows (step i) result ((interleave schedule tasks s).1 i) (points' i)) ∧
      holds points' (interleave schedule tasks s).2 := by
  induction schedule generalizing tasks points s with
  | nil => exact ⟨points, hfollows, hholds⟩
  | cons i schedule ih =>
      have hi := hfollows i
      have hfirst : fine s := hfine [] (List.nil_prefix)
      have hrest : ∀ earlier, earlier <+: schedule →
          fine (interleave (i :: earlier) tasks s).2 :=
        fun earlier hearlier => hfine _ ((List.prefix_cons_inj i).mpr hearlier)
      cases htask : tasks i with
      | done a =>
          -- a caller that is done lets its turn pass
          have hsame : Function.update tasks i (.done a) = tasks := by
            rw [← htask, Function.update_eq_self]
          simp only [interleave, htask, advance, hsame] at hrest ⊢
          exact ih hfollows hrest hholds
      | step change next =>
          rw [htask] at hi
          cases hi with
          | step hlive hchange hnext =>
              simp only [interleave, htask, advance, hchange] at hrest ⊢
              -- the task and the point move together; the other callers stay where they are
              refine ih ?_ hrest (hstep points s i hfirst hholds hlive)
              intro j
              by_cases hj : j = i
              · subst hj
                rw [Function.update_self, Function.update_self]
                exact hnext s
              · rw [Function.update_of_ne hj, Function.update_of_ne hj]
                exact hfollows j

/-- **What every step of every caller preserves holds under every schedule.** -/
theorem interleave_follows
    (hstep : ∀ points s i, holds points s → result (points i) = none →
      holds (Function.update points i (step i (points i) s).1) (step i (points i) s).2)
    (schedule : List ι) {tasks : ι → Task σ α} {points : ι → π} {s : σ}
    (hfollows : ∀ i, Follows (step i) result (tasks i) (points i)) (hholds : holds points s) :
    ∃ points', (∀ i, Follows (step i) result ((interleave schedule tasks s).1 i) (points' i)) ∧
      holds points' (interleave schedule tasks s).2 :=
  interleave_follows_amid (fun points s i (_ : True) => hstep points s i) schedule hfollows
    (fun _ _ => trivial) hholds

/-- A caller that is alone gets from its first step to its last. -/
theorem exists_interleave_eq_run (t : Task σ α) (s : σ) :
    ∃ schedule : List (Fin 1), (interleave schedule (fun _ => t) s).2 = (t.run s).2 := by
  induction t generalizing s with
  | done a => exact ⟨[], rfl⟩
  | step change next ih =>
      obtain ⟨schedule, hschedule⟩ := ih s (change s)
      refine ⟨0 :: schedule, ?_⟩
      have halone : Function.update (fun _ : Fin 1 => Task.step change next) 0 (next s) =
          fun _ => next s := by
        funext i
        rw [Subsingleton.elim i 0, Function.update_self]
      simp only [interleave, advance, halone]
      exact hschedule

/-! ## What every step keeps -/

/-- Every step of a task keeps what holds of the state. -/
inductive Keeps (I : σ → Prop) : Task σ α → Prop where
  | done (a : α) : Keeps I (.done a)
  | step {change : σ → σ} {next : σ → Task σ α} (hchange : ∀ s, I s → I (change s))
      (hnext : ∀ s, Keeps I (next s)) : Keeps I (.step change next)

variable {I : σ → Prop}

theorem keeps_atomic {f : σ → α × σ} (h : ∀ s, I s → I (f s).2) : Keeps I (atomic f) :=
  .step h fun _ => .done _

theorem keeps_look (f : σ → α) : Keeps I (look f) := keeps_atomic fun _ h => h

theorem Keeps.bind {t : Task σ α} {f : α → Task σ β} (h : Keeps I t) (hf : ∀ a, Keeps I (f a)) :
    Keeps I (t >>= f) := by
  induction h with
  | done a => exact hf a
  | step hchange hnext ih => exact .step hchange ih

/-- **What every step of every task keeps is kept under every schedule.** -/
theorem keeps_interleave (schedule : List ι) {tasks : ι → Task σ α} {s : σ}
    (htasks : ∀ i, Keeps I (tasks i)) (hs : I s) : I (interleave schedule tasks s).2 := by
  induction schedule generalizing tasks s with
  | nil => exact hs
  | cons i schedule ih =>
      have hi := htasks i
      have hadvance : Keeps I ((tasks i).advance s).1 ∧ I ((tasks i).advance s).2 := by
        cases htask : tasks i with
        | done a => exact ⟨.done a, hs⟩
        | step change next =>
            rw [htask] at hi
            cases hi with
            | step hchange hnext => exact ⟨hnext s, hchange s hs⟩
      refine ih (fun j => ?_) hadvance.2
      by_cases hj : j = i
      · rw [hj, Function.update_self]
        exact hadvance.1
      · rw [Function.update_of_ne hj]
        exact htasks j

end Task

end OverlayVpn
