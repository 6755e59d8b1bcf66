set_option autoImplicit false

/-! # Calls made of atomic steps

A task is what a caller does to a shared state: a finite number of steps, each of which sees the
state and changes it as one. Between two steps of one caller other callers may take theirs. A
task can be run on its own, or amid others who act after each of its steps. -/

namespace OverlayVpn

/-- A call that ends in an `α`, made of steps on a state `σ`. A step changes the state, and what
comes next depends on the state that it found. -/
inductive Task (σ α : Type) where
  | done (result : α)
  | step (change : σ → σ) (next : σ → Task σ α)

namespace Task

variable {σ τ α β : Type}

/-- A task of one step. -/
def atomic (f : σ → α × σ) : Task σ α := .step (fun s => (f s).2) (fun s => .done (f s).1)

/-- A step that looks at the state. -/
def look (f : σ → α) : Task σ α := atomic fun s => (f s, s)

/-- A step that changes the state. -/
def change (f : σ → σ) : Task σ Unit := atomic fun s => ((), f s)

/-- A task that goes on with another. -/
def bind (t : Task σ α) (f : α → Task σ β) : Task σ β :=
  match t with
  | .done a => f a
  | .step change next => .step change fun s => bind (next s) f

instance : Monad (Task σ) where
  pure := .done
  bind := bind

/-- Runs a task on its own. -/
def run : Task σ α → σ → α × σ
  | .done a, s => (a, s)
  | .step change next, s => run (next s) (change s)

/-- Runs a task while another acts after each of its steps, on the state that it left. -/
def runAmid (act : σ → τ → σ × τ) : Task σ α → σ → τ → α × σ × τ
  | .done a, s, t => (a, s, t)
  | .step change next, s, t =>
    let (s', t) := act (change s) t
    runAmid act (next s) s' t

@[simp] theorem run_done (a : α) (s : σ) : (done a : Task σ α).run s = (a, s) := rfl

@[simp] theorem run_pure (a : α) (s : σ) : (pure a : Task σ α).run s = (a, s) := rfl

@[simp] theorem run_atomic (f : σ → α × σ) (s : σ) : (atomic f).run s = f s := rfl

theorem run_bind (t : Task σ α) (f : α → Task σ β) (s : σ) :
    (t.bind f).run s = (f (t.run s).1).run (t.run s).2 := by
  induction t generalizing s with
  | done a => rfl
  | step change next ih => exact ih s (change s)

end Task

end OverlayVpn
