import OverlayVpn.Proofs.Engine.Alike

set_option autoImplicit false

/-! # What is done to the devices of an engine, in a journal

An engine can be made to number the devices that it makes and to keep a journal of what is done to
each (`Engine.journaled`). It answers as it does without (`Engine.alike_journaled`). -/

namespace OverlayVpn

namespace Engine

/-- What is done to an engine. Devices are called by their numbers. -/
inductive Act where
  | created (device : Nat)
  /-- A device was to be made, and was not. -/
  | notCreated
  | set (device : Nat) (body : String) (done : Bool)
  | got (device : Nat) (done : Bool)
  | activated (device : Nat) (done : Bool)
  | closed (device : Nat) (closing : Closing)
  /-- The device's interface was to be deleted. -/
  | unlinked (device : Nat) (done : Bool)
  | discarded (device : Nat)
  deriving DecidableEq

namespace Act

/-- The number of the device that is made. -/
def made? : Act → Option Nat
  | .created n => some n
  | _ => none

/-- Whether an act is a part of giving a device up. -/
def givesUp (n : Nat) : Act → Bool
  | .closed m _ | .unlinked m _ | .discarded m => m == n
  | _ => false

section

variable (n m : Nat)

@[simp] theorem givesUp_created : givesUp n (.created m) = false := rfl

@[simp] theorem givesUp_closed (closing : Closing) : givesUp n (.closed m closing) = (m == n) := rfl

@[simp] theorem givesUp_unlinked (done : Bool) : givesUp n (.unlinked m done) = (m == n) := rfl

@[simp] theorem givesUp_discarded : givesUp n (.discarded m) = (m == n) := rfl

end

/-- An act that neither makes a device nor gives one up. -/
def IsRequest (act : Act) : Prop := act.made? = none ∧ ∀ n, act.givesUp n = false

theorem isRequest_notCreated : IsRequest .notCreated := ⟨rfl, fun _ => rfl⟩

theorem isRequest_set (n : Nat) (body : String) (done : Bool) : IsRequest (.set n body done) :=
  ⟨rfl, fun _ => rfl⟩

theorem isRequest_got (n : Nat) (done : Bool) : IsRequest (.got n done) := ⟨rfl, fun _ => rfl⟩

theorem isRequest_activated (n : Nat) (done : Bool) : IsRequest (.activated n done) :=
  ⟨rfl, fun _ => rfl⟩

end Act

/-- A world with the number of the devices made in it, and a journal. -/
structure Diary (ω : Type) where
  world : ω
  made : Nat := 0
  acts : List Act := []

variable {ω δ α : Type}

/-- An action of the world with the act that it amounts to. -/
def noting (note : α → Act) (f : ω → α × ω) (x : Diary ω) : α × Diary ω :=
  ((f x.world).1, { x with world := (f x.world).2, acts := x.acts ++ [note (f x.world).1] })

/-- The same engine with its devices numbered, and a journal of what is done to them. -/
def journaled (e : Engine ω δ) : Engine (Diary ω) (Nat × δ) where
  create interface x :=
    match e.create interface x.world with
    | (.ok device, w) =>
      (.ok (x.made, device), ⟨w, x.made + 1, x.acts ++ [.created x.made]⟩)
    | (.error fault, w) => (.error fault, { x with world := w, acts := x.acts ++ [.notCreated] })
  set device body := noting (fun r => .set device.1 body r.isOk) (e.set device.2 body)
  get device := noting (fun r => .got device.1 r.isOk) (e.get device.2)
  activate device address :=
    noting (fun r => .activated device.1 r.isOk) (e.activate device.2 address)
  close device limit := noting (fun closing => .closed device.1 closing) (e.close device.2 limit)
  deleteLink device := noting (fun r => .unlinked device.1 r.isOk) (e.deleteLink device.2)
  discard device x :=
    { x with world := e.discard device.2 x.world, acts := x.acts ++ [.discarded device.1] }

/-- **An engine does not notice that a journal is kept.** -/
theorem alike_journaled (e : Engine ω δ) :
    e.journaled.Alike e (fun x w => x.world = w) (fun numbered device => numbered.2 = device) where
  create interface x w h := by
    obtain rfl := h
    cases hcreate : e.create interface x.world with
    | mk result w =>
        cases result with
        | ok device =>
            refine ⟨⟨w, x.made + 1, x.acts ++ [.created x.made]⟩, w, rfl,
              Or.inl ⟨(x.made, device), device, rfl, ?_, rfl⟩⟩
            simp only [journaled, hcreate]
        | error fault =>
            refine ⟨⟨w, x.made, x.acts ++ [.notCreated]⟩, w, rfl, Or.inr ⟨fault, ?_, rfl⟩⟩
            simp only [journaled, hcreate]
  set := by rintro device _ body x _ rfl rfl; exact ⟨rfl, rfl⟩
  get := by rintro device _ x _ rfl rfl; exact ⟨rfl, rfl⟩
  activate := by rintro device _ address x _ rfl rfl; exact ⟨rfl, rfl⟩
  close := by rintro device _ limit x _ rfl rfl; exact ⟨rfl, rfl⟩
  deleteLink := by rintro device _ x _ rfl rfl; rfl
  discard := by rintro device _ x _ rfl rfl; rfl

end Engine

end OverlayVpn
