import OverlayVpn.Engine.Device

set_option autoImplicit false

/-! # Engines that answer alike

Two engines are alike, as far as `W` relates their worlds and `D` their devices, when each act on
related devices in related worlds has one outcome for both and leaves related worlds. What is built
on engines cannot tell alike ones from each other. -/

namespace OverlayVpn

namespace Engine

variable {ω ω' δ δ' : Type}

/-- Two engines answer alike. -/
structure Alike (e : Engine ω δ) (e' : Engine ω' δ') (W : ω → ω' → Prop) (D : δ → δ' → Prop) :
    Prop where
  create : ∀ (interface : String) (w : ω) (w' : ω'), W w w' → ∃ v v', W v v' ∧
    ((∃ device device', D device device' ∧ e.create interface w = (.ok device, v) ∧
        e'.create interface w' = (.ok device', v')) ∨
      ∃ fault, e.create interface w = (.error fault, v) ∧
        e'.create interface w' = (.error fault, v'))
  set : ∀ (device : δ) (device' : δ') (body : String) (w : ω) (w' : ω'), D device device' → W w w' →
    (e.set device body w).1 = (e'.set device' body w').1 ∧
      W (e.set device body w).2 (e'.set device' body w').2
  get : ∀ (device : δ) (device' : δ') (w : ω) (w' : ω'), D device device' → W w w' →
    (e.get device w).1 = (e'.get device' w').1 ∧ W (e.get device w).2 (e'.get device' w').2
  activate : ∀ (device : δ) (device' : δ') (address : String) (w : ω) (w' : ω'),
    D device device' → W w w' →
    (e.activate device address w).1 = (e'.activate device' address w').1 ∧
      W (e.activate device address w).2 (e'.activate device' address w').2
  close : ∀ (device : δ) (device' : δ') (limit : Option Nat) (w : ω) (w' : ω'),
    D device device' → W w w' →
    (e.close device limit w).1 = (e'.close device' limit w').1 ∧
      W (e.close device limit w).2 (e'.close device' limit w').2
  deleteLink : ∀ (device : δ) (device' : δ') (w : ω) (w' : ω'), D device device' → W w w' →
    W (e.deleteLink device w).2 (e'.deleteLink device' w').2
  discard : ∀ (device : δ) (device' : δ') (w : ω) (w' : ω'), D device device' → W w w' →
    W (e.discard device w) (e'.discard device' w')

/-- An engine is like itself in one world. -/
theorem alike_refl (e : Engine ω δ) : e.Alike e Eq Eq where
  create interface w w' h := by
    obtain rfl := h
    cases hcreate : e.create interface w with
    | mk result v =>
        cases result with
        | ok device => exact ⟨v, v, rfl, Or.inl ⟨device, device, rfl, rfl, rfl⟩⟩
        | error fault => exact ⟨v, v, rfl, Or.inr ⟨fault, rfl, rfl⟩⟩
  set := by rintro device _ body w _ rfl rfl; exact ⟨rfl, rfl⟩
  get := by rintro device _ w _ rfl rfl; exact ⟨rfl, rfl⟩
  activate := by rintro device _ address w _ rfl rfl; exact ⟨rfl, rfl⟩
  close := by rintro device _ limit w _ rfl rfl; exact ⟨rfl, rfl⟩
  deleteLink := by rintro device _ w _ rfl rfl; rfl
  discard := by rintro device _ w _ rfl rfl; rfl

end Engine

end OverlayVpn
