import OverlayVpn.Task

set_option autoImplicit false

/-! # Tasks run on their own

How the parts of a task run: a task that goes on with another runs one after the other, and a
step finds the state that the steps before it left. Two tasks run alike (`Alike`) when related states
make them end in related results and leave related states; of tasks that are put together from parts
this is shown part by part. -/

namespace OverlayVpn

namespace Task

variable {σ α β : Type}

@[simp] theorem run_then (t : Task σ α) (f : α → Task σ β) (s : σ) :
    (t >>= f).run s = (f (t.run s).1).run (t.run s).2 := run_bind t f s

@[simp] theorem run_look (f : σ → α) (s : σ) : (look f).run s = (f s, s) := rfl

@[simp] theorem run_change (f : σ → σ) (s : σ) : (change f).run s = ((), f s) := rfl

/-! ## Two tasks side by side -/

/-- Run on states that `R` relates, two tasks end in results that `Q` relates, and leave states that
`R` relates. -/
def Alike {σ' α' : Type} (R : σ → σ' → Prop) (Q : α → α' → Prop) (t : Task σ α) (t' : Task σ' α') :
    Prop :=
  ∀ s s', R s s' → Q (t.run s).1 (t'.run s').1 ∧ R (t.run s).2 (t'.run s').2

section

variable {σ' α' β' : Type} {R : σ → σ' → Prop} {Q : α → α' → Prop} {P : β → β' → Prop}

theorem alike_pure {a : α} {a' : α'} (h : Q a a') :
    Alike R Q (pure a : Task σ α) (pure a' : Task σ' α') :=
  fun _ _ hs => ⟨h, hs⟩

theorem alike_look {f : σ → α} {f' : σ' → α'} (h : ∀ s s', R s s' → Q (f s) (f' s')) :
    Alike R Q (look f) (look f') :=
  fun s s' hs => ⟨h s s' hs, hs⟩

theorem alike_change {f : σ → σ} {f' : σ' → σ'} (h : ∀ s s', R s s' → R (f s) (f' s')) :
    Alike R Eq (change f) (change f') :=
  fun s s' hs => ⟨rfl, h s s' hs⟩

/-- **What goes on alike from related results is alike as a whole.** -/
theorem Alike.bind {t : Task σ α} {t' : Task σ' α'} {f : α → Task σ β} {f' : α' → Task σ' β'}
    (h : Alike R Q t t') (hf : ∀ a a', Q a a' → Alike R P (f a) (f' a')) :
    Alike R P (t >>= f) (t' >>= f') := by
  intro s s' hs
  obtain ⟨hresult, hafter⟩ := h s s' hs
  rw [run_then, run_then]
  exact hf _ _ hresult _ _ hafter

end

end Task

end OverlayVpn
