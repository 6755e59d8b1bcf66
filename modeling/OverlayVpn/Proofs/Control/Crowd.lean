import Mathlib.Data.Fin.VecNotation
import Mathlib.Logic.Equiv.Basic
import OverlayVpn.Proofs.Control.Erasing
import OverlayVpn.Proofs.Control.Runs

set_option autoImplicit false

/-! # Clients that come and go at once

Any number of callers register clients and remove clients, and their steps interleave. An address is
then had by a record that names it, or by a call: a registration that has allocated it and not yet
written it down, or a removal that has struck its record out and not yet taken it back. What carries
through is `Allotted`: nobody else has what one has, and what is had is reserved, unless it is named
by a record from before that no call removes.

This asks two things of the removals. The address of the record must be reserved: it is taken back
only after the record is gone, and one that is not reserved may be allocated in between and is then
taken from its new holder. And no two of them may be of one key: both may look the record up, and the
later takes the address back a second time, whoever has it by then. -/

namespace OverlayVpn

namespace Plane

variable {β ι : Type}

/-! ## Calls amid others -/

/-- What a caller asks for amid others. -/
inductive Demand where
  | register (key : String)
  | erase (key : String)
  deriving DecidableEq

/-- The steps in which a demand is met. -/
def Demand.task (b : Backend β) : Demand → Task (Plane β) Reply
  | register key => Plane.register b key >>= fun r => return .ofResult .registered r
  | erase key => Plane.eraseClient b key >>= fun r => return .ofResult (fun _ => .erased) r

/-- Where a call stands. -/
inductive DemandPoint where
  /-- A registration is to begin, and what it was given for a key is none. -/
  | refusing (key : String) (fault : Key.Fault)
  | registering (key : String) (point : RegisterPoint)
  | erasing (key : String) (point : ErasePoint)

/-- The address that a registration has allocated and neither written down nor given back. -/
def RegisterPoint.unwritten : RegisterPoint → Option Ipv4
  | checking _ address | telling _ address | recording _ address | dropping address _
  | reinstating address _ | releasing address _ => some address
  | _ => none

namespace DemandPoint

def demand : DemandPoint → Demand
  | refusing key _ | registering key _ => .register key
  | erasing key _ => .erase key

/-- How a call was answered. -/
def result : DemandPoint → Option Reply
  | refusing .. => none
  | registering _ point => point.result.map (.ofResult .registered)
  | erasing _ point => point.result.map (.ofResult fun _ => .erased)

/-- The address that a call has: no record names it, or none any more. -/
def pending : DemandPoint → Option Ipv4
  | refusing .. => none
  | registering _ point => point.unwritten
  | erasing _ (.releasing address) => some address
  | erasing .. => none

end DemandPoint

/-- Where a call begins. -/
def Demand.entry : Demand → DemandPoint
  | register key =>
    match Key.check key with
    | .error fault => .refusing key fault
    | .ok () => .registering key .entering
  | erase key => .erasing key .entering

/-- What the next step of a call does. -/
def demandStep (b : Backend β) : DemandPoint → Plane β → DemandPoint × Plane β
  | .refusing key fault, p =>
    (.registering key (.finished none (.error
      (match p.running with
        | none => .notRunning
        | some _ => .invalidKey fault))), p)
  | .registering key point, p =>
    (.registering key (registerStep b key point p).1, (registerStep b key point p).2)
  | .erasing key point, p => (.erasing key (eraseStep b key point p).1, (eraseStep b key point p).2)

/-- **A call goes through the points**, whatever it was given for a key. -/
theorem follows_task (b : Backend β) (d : Demand) :
    Task.Follows (demandStep b) DemandPoint.result (d.task b) d.entry := by
  cases d with
  | register key =>
      cases hkey : Key.check key with
      | ok u =>
          have hentry : (Demand.register key).entry = .registering key .entering := by
            rw [Demand.entry, hkey]
          rw [hentry]
          exact (follows_register hkey).embed (DemandPoint.registering key)
            (Reply.ofResult .registered) (fun _ _ => rfl) fun _ => rfl
      | error fault =>
          have hentry : (Demand.register key).entry = .refusing key fault := by
            rw [Demand.entry, hkey]
          rw [hentry]
          refine .step rfl (fun _ => rfl) fun p => ?_
          simp only [demandStep]
          cases hrunning : p.running with
          | none => exact .done rfl
          | some running =>
              simp only [hkey]
              exact .done rfl
  | erase key =>
      exact follows_eraseClient.embed (DemandPoint.erasing key) (Reply.ofResult fun _ => .erased)
        (fun _ _ => rfl) fun _ => rfl

/-! ## Who has which address -/

/-- The record of a key names an address. -/
def Names (p : Plane β) (key : String) (a : Ipv4) : Prop :=
  ∃ record, p.registry.peers.get? key = some record ∧ Ipv4.ofEntry? record.allowedAddress = some a

/-- An address is had by a record or by a call. -/
def Has (points : ι → DemandPoint) (p : Plane β) (a : Ipv4) : String ⊕ ι → Prop
  | .inl key => p.Names key a
  | .inr i => (points i).pending = some a

/-- A record was there before the calls, and none of them removes it. -/
def Lasts (start : Plane β) (demands : ι → Demand) (key : String) : Prop :=
  start.registry.peers.contains key = true ∧ ∀ i, demands i ≠ .erase key

/-- What a call has seen is so still: the addresses of the records that last, and a record that it is
to strike out. -/
def DemandPoint.Fits (start : Plane β) (demands : ι → Demand) (p : Plane β) : DemandPoint → Prop
  | registering _ (.allocating _ known) => ∀ key, Lasts start demands key →
      ∀ record, start.registry.peers.get? key = some record → record.allowedAddress ∈ known
  | erasing key (.striking found) =>
      ∀ record, found = some record → p.registry.peers.get? key = some record
  | _ => True

/-- Calls stand at their points since a control plane was `start`, and addresses are kept apart. -/
structure Allotted (start : Plane β) (demands : ι → Demand) (points : ι → DemandPoint)
    (p : Plane β) : Prop where
  sound : p.allocator.Sound
  demand_eq : ∀ i, (points i).demand = demands i
  unique : ∀ a x y, Has points p a x → Has points p a y → x = y
  reserved : ∀ a x, Has points p a x → p.allocator.pool.assignable a = true →
    a.toNat ∈ p.allocator.reserved ∨ ∃ key, x = .inl key ∧ Lasts start demands key
  lasting : ∀ key, Lasts start demands key →
    p.registry.peers.get? key = start.registry.peers.get? key
  fits : ∀ i, (points i).Fits start demands p

/-! ## Steps -/

section

variable {start p : Plane β} {demands : ι → Demand} {points : ι → DemandPoint} {i : ι}
  {point : DemandPoint}

theorem Allotted.demand_at (h : Allotted start demands points p) (hpoint : points i = point) :
    point.demand = demands i := by
  rw [← hpoint]
  exact h.demand_eq i

theorem Allotted.fits_at (h : Allotted start demands points p) (hpoint : points i = point) :
    point.Fits start demands p := by
  rw [← hpoint]
  exact h.fits i

/-- Nobody has an address that is free. -/
theorem Allotted.not_has_of_free (h : Allotted start demands points p) {known : List String}
    (hknown : ∀ key, Lasts start demands key →
      ∀ record, start.registry.peers.get? key = some record → record.allowedAddress ∈ known)
    {a : Ipv4} (hfree : p.allocator.Free known a) (x : String ⊕ ι) : ¬Has points p a x := by
  intro hx
  obtain ⟨hassign, hunknown, hunreserved⟩ := hfree
  rcases h.reserved a x hx hassign with hmem | ⟨key, rfl, hlasts⟩
  · exact hunreserved hmem
  · obtain ⟨record, hrecord, hnames⟩ := hx
    rw [h.lasting key hlasts] at hrecord
    exact hunknown _ (hknown key hlasts record hrecord) hnames

end

variable [DecidableEq ι] {start p q : Plane β} {demands : ι → Demand} {points : ι → DemandPoint}
  {i : ι} {point : DemandPoint}

/-- A call moves on; what the other calls have seen is so still. -/
theorem Allotted.advance (h : Allotted start demands points p) (hdemand : point.demand = demands i)
    (hsound : q.allocator.Sound)
    (hunique : ∀ a x y, Has (Function.update points i point) q a x →
      Has (Function.update points i point) q a y → x = y)
    (hreserved : ∀ a x, Has (Function.update points i point) q a x →
      q.allocator.pool.assignable a = true →
        a.toNat ∈ q.allocator.reserved ∨ ∃ key, x = .inl key ∧ Lasts start demands key)
    (hlasting : ∀ key, Lasts start demands key →
      q.registry.peers.get? key = p.registry.peers.get? key)
    (hfits : point.Fits start demands q)
    (hothers : ∀ j, j ≠ i → ∀ key record, points j = .erasing key (.striking (some record)) →
      p.registry.peers.get? key = some record → q.registry.peers.get? key = some record) :
    Allotted start demands (Function.update points i point) q where
  sound := hsound
  demand_eq := by
    intro j
    by_cases hj : j = i
    · rw [hj, Function.update_self, hdemand]
    · rw [Function.update_of_ne hj, h.demand_eq]
  unique := hunique
  reserved := hreserved
  lasting := fun key hlasts => (hlasting key hlasts).trans (h.lasting key hlasts)
  fits := by
    intro j
    by_cases hj : j = i
    · rw [hj, Function.update_self]
      exact hfits
    · rw [Function.update_of_ne hj]
      have hfit := h.fits j
      cases hpoint : points j with
      | refusing => trivial
      | registering key point =>
          rw [hpoint] at hfit
          cases point <;> exact hfit
      | erasing key point =>
          rw [hpoint] at hfit
          cases point with
          | striking found =>
              rintro record rfl
              exact hothers j hj key record hpoint (hfit record rfl)
          | entering | dropping | lookingUp | releasing | finished => trivial

/-- **Addresses change hands.** Whatever anybody has after a step, somebody had before, and what two
have after it two had before. -/
theorem Allotted.pass (h : Allotted start demands points p) (hdemand : point.demand = demands i)
    (hsound : q.allocator.Sound) (hpool : q.allocator.pool = p.allocator.pool)
    {giver : String ⊕ ι → String ⊕ ι} (hinjective : Function.Injective giver)
    (hhas : ∀ a x, Has (Function.update points i point) q a x → Has points p a (giver x))
    (hreserved : ∀ a x, Has (Function.update points i point) q a x →
      a.toNat ∈ p.allocator.reserved → a.toNat ∈ q.allocator.reserved)
    (hrecords : ∀ a x key, Has (Function.update points i point) q a x → giver x = .inl key →
      Lasts start demands key → x = .inl key)
    (hlasting : ∀ key, Lasts start demands key →
      q.registry.peers.get? key = p.registry.peers.get? key)
    (hfits : point.Fits start demands q)
    (hothers : ∀ j, j ≠ i → ∀ key record, points j = .erasing key (.striking (some record)) →
      p.registry.peers.get? key = some record → q.registry.peers.get? key = some record) :
    Allotted start demands (Function.update points i point) q := by
  refine h.advance hdemand hsound (fun a x y hx hy => ?_) (fun a x hx hassign => ?_) hlasting hfits
    hothers
  · exact hinjective (h.unique a _ _ (hhas a x hx) (hhas a y hy))
  · rw [hpool] at hassign
    rcases h.reserved a _ (hhas a x hx) hassign with hmem | ⟨key, hkey, hlasts⟩
    · exact Or.inl (hreserved a x hx hmem)
    · exact Or.inr ⟨key, hrecords a x key hx hkey hlasts, hlasts⟩

/-- What a call has after one call has moved on. -/
theorem pending_update {j : ι} {a : Ipv4}
    (h : (Function.update points i point j).pending = some a) :
    (j = i ∧ point.pending = some a) ∨ (j ≠ i ∧ (points j).pending = some a) := by
  by_cases hj : j = i
  · rw [hj, Function.update_self] at h
    exact Or.inl ⟨hj, h⟩
  · rw [Function.update_of_ne hj] at h
    exact Or.inr ⟨hj, h⟩

/-- Nobody has more than before when a call has nothing new and the records are the same. -/
theorem has_of_update (hpeers : q.registry.peers = p.registry.peers)
    (hpending : ∀ a, point.pending = some a → (points i).pending = some a) {a : Ipv4}
    {x : String ⊕ ι} (h : Has (Function.update points i point) q a x) : Has points p a x := by
  cases x with
  | inl key =>
      obtain ⟨record, hrecord, hnames⟩ := h
      exact ⟨record, by rw [← hpeers, hrecord], hnames⟩
  | inr j =>
      rcases pending_update h with ⟨rfl, hnew⟩ | ⟨-, hold⟩
      · exact hpending a hnew
      · exact hold

/-- A call moves on, and changes neither records nor reservations. -/
theorem Allotted.keep (h : Allotted start demands points p) (hdemand : point.demand = demands i)
    (hpeers : q.registry.peers = p.registry.peers) (hsound : q.allocator.Sound)
    (hpool : q.allocator.pool = p.allocator.pool)
    (hreserved : q.allocator.reserved = p.allocator.reserved)
    (hpending : ∀ a, point.pending = some a → (points i).pending = some a)
    (hfits : point.Fits start demands q) :
    Allotted start demands (Function.update points i point) q :=
  h.pass hdemand hsound hpool Function.injective_id
    (fun _ _ hx => has_of_update hpeers hpending hx) (fun _ _ _ hmem => hreserved ▸ hmem)
    (fun _ _ _ _ hkey _ => hkey) (fun _ _ => by rw [hpeers]) hfits
    fun _ _ _ _ _ hrecord => by rw [hpeers, hrecord]

/-- **A call that gives its address back** takes nobody else's. -/
theorem Allotted.giveBack (h : Allotted start demands points p) (hdemand : point.demand = demands i)
    {a : Ipv4} (hhad : (points i).pending = some a) (hpending : point.pending = none)
    (hfits : ∀ q, point.Fits start demands q) :
    Allotted start demands (Function.update points i point)
      { p with allocator := (p.allocator.release a).2 } := by
  have hless : ∀ a, point.pending = some a → (points i).pending = some a := by
    intro a' hsome
    rw [hpending] at hsome
    cases hsome
  refine h.pass hdemand (Allocator.sound_release h.sound a) (Allocator.pool_release _ _)
    Function.injective_id (fun _ _ hx => has_of_update rfl hless hx) (fun a' x hx hmem => ?_)
    (fun _ _ _ _ hkey _ => hkey) (fun _ _ => rfl) (hfits _) fun _ _ _ _ _ hrecord => hrecord
  rw [Allocator.mem_reserved_release h.sound]
  refine ⟨hmem, fun hsame => ?_⟩
  -- whoever has the address given back is the call itself, which has nothing any more
  obtain rfl := Ipv4.ext_toNat hsame
  obtain rfl := h.unique a' x (.inr i) (has_of_update rfl hless hx) hhad
  rcases pending_update hx with ⟨-, hsome⟩ | ⟨hne, -⟩
  · rw [hpending] at hsome
    cases hsome
  · exact hne rfl

/-- **A call is granted an address** that nobody has. -/
theorem Allotted.grant (h : Allotted start demands points p) (hdemand : point.demand = demands i)
    (hpeers : q.registry.peers = p.registry.peers) {a : Ipv4} {now : Timestamp}
    (hallocator : q.allocator = p.allocator.grant a.toNat now)
    (hassign : p.allocator.pool.assignable a = true) (hnobody : ∀ x, ¬Has points p a x)
    (hpending : point.pending = some a) (hfits : point.Fits start demands q) :
    Allotted start demands (Function.update points i point) q := by
  -- what others have they had before
  have hhas : ∀ a' x, Has (Function.update points i point) q a' x →
      (x = .inr i ∧ a' = a) ∨ (x ≠ .inr i ∧ Has points p a' x) := by
    intro a' x hx
    cases x with
    | inl key =>
        obtain ⟨record, hrecord, hnames⟩ := hx
        exact Or.inr ⟨by simp, record, by rw [← hpeers, hrecord], hnames⟩
    | inr j =>
        rcases pending_update hx with ⟨rfl, hsome⟩ | ⟨hne, hsome⟩
        · rw [hpending] at hsome
          exact Or.inl ⟨rfl, (Option.some.inj hsome).symm⟩
        · exact Or.inr ⟨by simpa using hne, hsome⟩
  refine h.advance hdemand ?_ (fun a' x y hx hy => ?_) (fun a' x hx hassign' => ?_)
    (fun _ _ => by rw [hpeers]) hfits fun _ _ _ _ _ hrecord => by rw [hpeers, hrecord]
  · rw [hallocator]
    exact Allocator.sound_grant h.sound hassign now
  · rcases hhas a' x hx with ⟨rfl, rfl⟩ | ⟨-, hx⟩
    · rcases hhas a' y hy with ⟨rfl, -⟩ | ⟨-, hy⟩
      · rfl
      · exact absurd hy (hnobody y)
    · rcases hhas a' y hy with ⟨-, rfl⟩ | ⟨-, hy⟩
      · exact absurd hx (hnobody x)
      · exact h.unique a' x y hx hy
  · rw [hallocator] at hassign' ⊢
    rcases hhas a' x hx with ⟨-, rfl⟩ | ⟨-, hx⟩
    · exact Or.inl (List.mem_insert_iff.mpr (Or.inl rfl))
    · exact (h.reserved a' x hx hassign').imp_left fun hmem => List.mem_insert_iff.mpr (Or.inr hmem)

/-- A call and the record of a key change places: each has what the other had, or nothing. -/
theorem Allotted.swap (h : Allotted start demands points p) (hdemand : point.demand = demands i)
    (hallocator : q.allocator = p.allocator) {key : String} (hkey : ¬Lasts start demands key)
    (hrecord : ∀ a, q.Names key a → (points i).pending = some a)
    (hcall : ∀ a, point.pending = some a → p.Names key a)
    (hothers : ∀ k, k ≠ key → q.registry.peers.get? k = p.registry.peers.get? k)
    (hstriking : ∀ j, j ≠ i → ∀ record, points j = .erasing key (.striking (some record)) →
      p.registry.peers.get? key ≠ some record) (hfits : point.Fits start demands q) :
    Allotted start demands (Function.update points i point) q := by
  refine h.pass hdemand (hallocator ▸ h.sound) (by rw [hallocator])
    (Equiv.swap (Sum.inl key) (Sum.inr i)).injective (fun a x hx => ?_)
    (fun _ _ _ hmem => hallocator ▸ hmem) (fun a x k _ hk hlasts => ?_) (fun k hlasts => ?_) hfits
    fun j hj k record hpoint hfound => ?_
  · cases x with
    | inl k =>
        by_cases hk : k = key
        · obtain rfl := hk
          rw [Equiv.swap_apply_left]
          exact hrecord a hx
        · rw [Equiv.swap_apply_of_ne_of_ne (by simpa using hk) (by simp)]
          obtain ⟨record, hfound, hnames⟩ := hx
          exact ⟨record, by rw [← hothers k hk, hfound], hnames⟩
    | inr j =>
        rcases pending_update hx with ⟨rfl, hsome⟩ | ⟨hj, hsome⟩
        · rw [Equiv.swap_apply_right]
          exact hcall a hsome
        · rw [Equiv.swap_apply_of_ne_of_ne (by simp) (by simpa using hj)]
          exact hsome
  · have hne : k ≠ key := by
      rintro rfl
      exact hkey hlasts
    rw [Equiv.swap_apply_eq_iff, Equiv.swap_apply_of_ne_of_ne (by simpa using hne) (by simp)] at hk
    exact hk
  · refine hothers k ?_
    rintro rfl
    exact hkey hlasts
  · have hne : k ≠ key := by
      rintro rfl
      exact hstriking j hj record hpoint hfound
    rw [hothers k hne, hfound]

/-- **What a registration has passes to its record** when it is written down. -/
theorem Allotted.write (h : Allotted start demands points p) (hdemand : point.demand = demands i)
    {key : String} {record : RegisteredPeer} {a : Ipv4}
    (hpeers : q.registry.peers = p.registry.peers.insert key record)
    (hnew : p.registry.peers.get? key = none)
    (hnames : Ipv4.ofEntry? record.allowedAddress = some a) (hallocator : q.allocator = p.allocator)
    (hhad : (points i).pending = some a) (hpending : point.pending = none)
    (hfits : point.Fits start demands q) :
    Allotted start demands (Function.update points i point) q := by
  have hkey : ¬Lasts start demands key := by
    intro hlasts
    obtain ⟨before, hbefore⟩ := Option.isSome_iff_exists.mp hlasts.1
    rw [h.lasting key hlasts, hbefore] at hnew
    cases hnew
  refine h.swap hdemand hallocator hkey ?_ ?_ (fun k hk => ?_) (fun _ _ _ _ => ?_) hfits
  · rintro a' ⟨record', hfound, hnames'⟩
    rw [hpeers, KeyMap.get?_insert_self] at hfound
    obtain rfl := Option.some.inj hfound
    rw [hhad, ← hnames, hnames']
  · intro a' hsome
    rw [hpending] at hsome
    cases hsome
  · rw [hpeers, KeyMap.get?_insert_of_ne _ _ hk]
  · rw [hnew]
    simp

/-- **What a record names passes to the call that strikes it out.** A record that nobody looked up may
be struck out too; its address is then lost. -/
theorem Allotted.strike (h : Allotted start demands points p)
    (honce : ∀ j key, demands i = .erase key → demands j = .erase key → j = i) {key : String}
    {found : Option RegisteredPeer} (hpoint : points i = .erasing key (.striking found))
    (hpeers : q.registry.peers = p.registry.peers.erase key) (hallocator : q.allocator = p.allocator) :
    Allotted start demands (Function.update points i (.erasing key (afterStrike found))) q := by
  have hdemand : demands i = .erase key := (h.demand_at hpoint).symm
  have hfound := h.fits_at hpoint
  refine h.swap hdemand.symm hallocator (fun hlasts => hlasts.2 i hdemand) ?_ ?_ (fun k hk => ?_) ?_ ?_
  · rintro a ⟨record, hrecord, -⟩
    rw [hpeers, KeyMap.get?_erase_self] at hrecord
    cases hrecord
  · intro a hsome
    unfold afterStrike at hsome
    split at hsome
    · next address haddress =>
        obtain rfl := Option.some.inj hsome
        obtain ⟨record, hrecord, hnames⟩ := Option.bind_eq_some_iff.mp haddress
        exact ⟨record, hfound record hrecord, hnames⟩
    · cases hsome
  · rw [hpeers, KeyMap.get?_erase_of_ne _ hk]
  · intro j hj record hother
    exact absurd (honce j key hdemand (h.demand_at hother).symm) hj
  · unfold afterStrike
    split <;> trivial

/-! ## The steps of a registration -/

/-- A registration moves on, and changes neither records nor reservations. -/
theorem Allotted.stay (h : Allotted start demands points p) {key : String}
    {before after : RegisterPoint} (hpoint : points i = .registering key before)
    (hpeers : q.registry.peers = p.registry.peers) (hallocator : q.allocator = p.allocator)
    (hpending : ∀ a, after.unwritten = some a → before.unwritten = some a)
    (hfits : (DemandPoint.registering key after).Fits start demands q) :
    Allotted start demands (Function.update points i (.registering key after)) q := by
  have hdemand := h.demand_at hpoint
  refine h.keep hdemand hpeers (hallocator ▸ h.sound) (by rw [hallocator]) (by rw [hallocator])
    (fun a hsome => ?_) hfits
  rw [hpoint]
  exact hpending a hsome

variable {b : Backend β} {key : String}

theorem allotted_allocating (h : Allotted start demands points p) {running : ServerRun}
    {known : List String} (hpoint : points i = .registering key (.allocating running known)) :
    Allotted start demands
      (Function.update points i
        (.registering key (registerStep b key (.allocating running known) p).1))
      (registerStep b key (.allocating running known) p).2 := by
  have hknown := h.fits_at hpoint
  have hdemand := h.demand_at hpoint
  rcases Allocator.allocate_cases h.sound known p.host.clock.read.1 with
    ⟨a, hfree, -, heq⟩ | ⟨-, heq⟩
  · have hok : ((allocate known).run p).1 = .ok (.host a) := congrArg Prod.fst heq
    have hgrant : ((allocate known).run p).2.allocator =
        p.allocator.grant a.toNat p.host.clock.read.1 := congrArg Prod.snd heq
    simp only [registerStep, hok, Network.address_host]
    exact h.grant hdemand rfl hgrant hfree.1 (h.not_has_of_free hknown hfree) rfl trivial
  · have herror : ((allocate known).run p).1 = .error (.exhausted p.allocator.pool.network) :=
      congrArg Prod.fst heq
    have hrefuse : ((allocate known).run p).2.allocator = p.allocator.refuse := congrArg Prod.snd heq
    simp only [registerStep, herror]
    refine h.keep hdemand rfl ?_ ?_ ?_ (fun a hsome => by cases hsome) trivial
    · rw [hrefuse]
      exact Allocator.sound_refuse h.sound
    · rw [hrefuse, Allocator.pool_refuse]
    · rw [hrefuse]
      rfl

theorem allotted_recording (h : Allotted start demands points p) {running : ServerRun} {a : Ipv4}
    (hpoint : points i = .registering key (.recording running a)) :
    Allotted start demands
      (Function.update points i (.registering key (registerStep b key (.recording running a) p).1))
      (registerStep b key (.recording running a) p).2 := by
  have hdemand := h.demand_at hpoint
  have hhad : (points i).pending = some a := by rw [hpoint]; rfl
  simp only [registerStep, record, Task.run_atomic]
  rcases Registry.add_cases p.registry p.host key (Network.host a).text with
    ⟨record, hfound, -, heq⟩ | ⟨record, hfound, -, heq⟩ | ⟨hnew, record, hrecord, ⟨disk, -, heq⟩ |
      ⟨error, disk, -, heq⟩⟩
  · simp only [heq]
    exact h.stay hpoint rfl rfl (fun _ hsome => by cases hsome) trivial
  · simp only [heq]
    exact h.stay hpoint rfl rfl (fun _ hsome => hsome) trivial
  · simp only [heq]
    have hnames : Ipv4.ofEntry? record.allowedAddress = some a := by
      rw [hrecord, Network.ofEntry?_host]
    exact h.write hdemand rfl hnew hnames rfl hhad rfl trivial
  · simp only [heq]
    exact h.stay hpoint rfl rfl (fun _ hsome => by cases hsome) trivial

/-- **Every step of a registration keeps addresses apart.** -/
theorem allotted_register (h : Allotted start demands points p) {point : RegisterPoint}
    (hpoint : points i = .registering key point) (hlive : point.result = none) :
    Allotted start demands
      (Function.update points i (.registering key (registerStep b key point p).1))
      (registerStep b key point p).2 := by
  have hnone : ∀ {after : RegisterPoint}, after.unwritten = none →
      ∀ a, after.unwritten = some a → point.unwritten = some a := by
    intro after hafter a hsome
    rw [hafter] at hsome
    cases hsome
  cases point with
  | entering | lookingUp | renewing =>
      simp only [registerStep]
      split <;> exact h.stay hpoint rfl rfl (hnone rfl) trivial
  | collecting running =>
      refine h.stay hpoint rfl rfl (hnone rfl) fun key hlasts record hrecord => ?_
      rw [← h.lasting key hlasts] at hrecord
      exact List.mem_map.mpr ⟨record, KeyMap.mem_values_iff.mpr ⟨key, hrecord⟩, rfl⟩
  | allocating running known => exact allotted_allocating h hpoint
  | checking | telling =>
      simp only [registerStep]
      split <;> exact h.stay hpoint rfl rfl (fun _ hsome => hsome) trivial
  | recording running a => exact allotted_recording h hpoint
  | finding =>
      simp only [registerStep]
      split <;> exact h.stay hpoint rfl rfl (hnone rfl) trivial
  | readingClock => exact h.stay hpoint rfl rfl (hnone rfl) trivial
  | dropping | reinstating => exact h.stay hpoint rfl rfl (fun _ hsome => hsome) trivial
  | releasing a fault =>
      have hdemand := h.demand_at hpoint
      have hhad : (points i).pending = some a := by rw [hpoint]; rfl
      refine h.giveBack ?_ hhad rfl fun _ => trivial
      exact hdemand
  | finished => cases hlive

/-! ## The steps of a removal -/

/-- Every record can be struck out. -/
def CanStrike (p : Plane β) : Prop :=
  ∀ key ∈ p.registry.peers.keys,
    (p.registry.commit p.host.disk (p.registry.peers.erase key)).1.isOk = true

instance (p : Plane β) : Decidable p.CanStrike :=
  inferInstanceAs (Decidable (∀ key ∈ p.registry.peers.keys, _ = true))

theorem allotted_striking (h : Allotted start demands points p)
    (honce : ∀ j key, demands i = .erase key → demands j = .erase key → j = i)
    (hstrike : p.CanStrike) {found : Option RegisteredPeer}
    (hpoint : points i = .erasing key (.striking found)) :
    Allotted start demands (Function.update points i (.erasing key (afterStrike found)))
      (p.struck key) := by
  cases hrecord : p.registry.peers.get? key with
  | none =>
      have hdemand := h.demand_at hpoint
      have hfound := h.fits_at hpoint
      have hsame : p.struck key = p := by
        simp only [struck, Plane.strike, Task.run_atomic, Registry.remove, hrecord]
      rw [hsame]
      -- who found no record strikes none out
      cases found with
      | none =>
          exact h.keep hdemand rfl h.sound rfl rfl (fun _ hsome => by cases hsome) trivial
      | some record =>
          rw [hfound record rfl] at hrecord
          cases hrecord
  | some record =>
      have hok := hstrike key (KeyMap.mem_keys_of_get? hrecord)
      rcases Registry.commit_cases p.registry p.host.disk (p.registry.peers.erase key) with
        ⟨disk, -, heq⟩ | ⟨error, disk, -, heq⟩
      · refine h.strike honce hpoint ?_ rfl
        simp only [struck, Plane.strike, Task.run_atomic, Registry.remove, hrecord, heq]
      · rw [heq] at hok
        cases hok

/-- **Every step of a removal keeps addresses apart**, if records can be struck out. -/
theorem allotted_erase (h : Allotted start demands points p)
    (honce : ∀ j key, demands i = .erase key → demands j = .erase key → j = i)
    (hstrike : p.CanStrike) {point : ErasePoint} (hpoint : points i = .erasing key point)
    (hlive : point.result = none) :
    Allotted start demands (Function.update points i (.erasing key (eraseStep b key point p).1))
      (eraseStep b key point p).2 := by
  have hdemand := h.demand_at hpoint
  cases point with
  | entering | dropping =>
      simp only [eraseStep]
      split <;>
        exact h.keep hdemand rfl h.sound rfl rfl (fun _ hsome => by cases hsome) trivial
  | lookingUp =>
      exact h.keep hdemand rfl h.sound rfl rfl (fun _ hsome => by cases hsome)
        fun record hrecord => hrecord
  | striking found => exact allotted_striking h honce hstrike hpoint
  | releasing a =>
      have hhad : (points i).pending = some a := by rw [hpoint]; rfl
      refine h.giveBack ?_ hhad rfl fun _ => trivial
      exact hdemand
  | finished => cases hlive

/-! ## Any number of calls -/

/-- **Every step keeps addresses apart**, if records can be struck out. -/
theorem allotted_step (h : Allotted start demands points p)
    (honce : ∀ i j key, demands i = .erase key → demands j = .erase key → i = j)
    (hstrike : p.CanStrike) (hlive : (points i).result = none) :
    Allotted start demands (Function.update points i (demandStep b (points i) p).1)
      (demandStep b (points i) p).2 := by
  cases hpoint : points i with
  | refusing key fault =>
      have hdemand := h.demand_at hpoint
      exact h.keep hdemand rfl h.sound rfl rfl (fun _ hsome => by cases hsome) trivial
  | registering key point =>
      rw [hpoint] at hlive
      exact allotted_register h hpoint (Option.map_eq_none_iff.mp hlive)
  | erasing key point =>
      rw [hpoint] at hlive
      exact allotted_erase h (fun j key hi hj => honce j i key hj hi) hstrike hpoint
        (Option.map_eq_none_iff.mp hlive)

omit [DecidableEq ι] in
/-- Addresses are apart when no call has taken a step. -/
theorem allotted_start (hsound : p.allocator.Sound)
    (hapart : ∀ k₁ k₂ a, p.Names k₁ a → p.Names k₂ a → k₁ = k₂)
    (hreserved : ∀ i key a, demands i = .erase key → p.Names key a →
      p.allocator.pool.assignable a = true → a.toNat ∈ p.allocator.reserved) :
    Allotted p demands (fun i => (demands i).entry) p := by
  have hentry : ∀ i, (demands i).entry.pending = none ∧ (demands i).entry.demand = demands i ∧
      (demands i).entry.Fits p demands p := by
    intro i
    cases demands i with
    | register key =>
        unfold Demand.entry
        dsimp only
        cases Key.check key <;> exact ⟨rfl, rfl, trivial⟩
    | erase key => exact ⟨rfl, rfl, trivial⟩
  -- what is had is had by records
  have hrecord : ∀ a x, Has (fun i => (demands i).entry) p a x →
      ∃ key, x = .inl key ∧ p.Names key a := by
    intro a x hx
    cases x with
    | inl key => exact ⟨key, rfl, hx⟩
    | inr i =>
        rw [Has, (hentry i).1] at hx
        cases hx
  refine ⟨hsound, fun i => (hentry i).2.1, fun a x y hx hy => ?_, fun a x hx hassign => ?_,
    fun _ _ => rfl, fun i => (hentry i).2.2⟩
  · obtain ⟨k₁, rfl, h₁⟩ := hrecord a x hx
    obtain ⟨k₂, rfl, h₂⟩ := hrecord a y hy
    rw [hapart k₁ k₂ a h₁ h₂]
  · obtain ⟨key, rfl, hnames⟩ := hrecord a x hx
    by_cases herased : ∃ i, demands i = .erase key
    · obtain ⟨i, hi⟩ := herased
      exact Or.inl (hreserved i key a hi hnames hassign)
    · obtain ⟨record, hfound, -⟩ := hnames
      exact Or.inr ⟨key, rfl, KeyMap.contains_of_get? hfound, not_exists.mp herased⟩

/-- **Addresses stay apart, whatever the order of steps.** Any number of callers register clients and
remove clients, on a control plane whose records name different addresses and whose records can be
struck out. If no key is removed by two of the callers, and what they remove has its address reserved
in this process, then at no moment two records name one address; and what is recorded since then has
its address reserved. Nothing is asked of the backend. -/
theorem addresses_stay_apart (b : Backend β) {p : Plane β} (hsound : p.allocator.Sound)
    (hapart : ∀ k₁ k₂ a, p.Names k₁ a → p.Names k₂ a → k₁ = k₂) (demands : ι → Demand)
    (honce : ∀ i j key, demands i = .erase key → demands j = .erase key → i = j)
    (hreserved : ∀ i key a, demands i = .erase key → p.Names key a →
      p.allocator.pool.assignable a = true → a.toNat ∈ p.allocator.reserved)
    (schedule : List ι)
    (hstrike : ∀ earlier, earlier <+: schedule →
      (Task.interleave earlier (fun i => (demands i).task b) p).2.CanStrike) :
    let q := (Task.interleave schedule (fun i => (demands i).task b) p).2
    (∀ k₁ k₂ a, q.Names k₁ a → q.Names k₂ a → k₁ = k₂) ∧
      ∀ key a, q.Names key a → q.allocator.pool.assignable a = true →
        a.toNat ∈ q.allocator.reserved ∨ Lasts p demands key := by
  intro q
  have hstep : ∀ (points : ι → DemandPoint) (r : Plane β) (i : ι), r.CanStrike →
      Allotted p demands points r → (points i).result = none →
      Allotted p demands (Function.update points i (demandStep b (points i) r).1)
        (demandStep b (points i) r).2 :=
    fun _ _ _ hcan h hlive => allotted_step h honce hcan hlive
  obtain ⟨points, -, h⟩ := Task.interleave_follows_amid hstep schedule
    (fun i => follows_task b (demands i)) hstrike (allotted_start hsound hapart hreserved)
  refine ⟨fun k₁ k₂ a h₁ h₂ => ?_, fun key a hnames hassign => ?_⟩
  · exact Sum.inl.inj (h.unique a (.inl k₁) (.inl k₂) h₁ h₂)
  · rcases h.reserved a (.inl key) hnames hassign with hmem | ⟨k, hk, hlasts⟩
    · exact Or.inl hmem
    · obtain rfl := Sum.inl.inj hk
      exact Or.inr hlasts

/-- A client that this process registered is removed while two others register: what is taken back is
the removed client's address, which goes to the last to come. -/
theorem addresses_stay_apart_of_three :
    let key₁ := "xTIBA5rboUvnH4htodjb6e697QjLERt1NAB4mZqp8Dg="
    let key₂ := "HIgo9xNzJMWLKASShiTqIybxZ0U3wGLiUeJ1PKf8ykw="
    let key₃ := "TrMvSoP4jYQlY6RIzBgbssQqY3vxI2Pi+y71lOWWXX0="
    let b := EngineTunnel.backend Engine.bare
    let demands : Fin 3 → Demand := ![.erase key₁, .register key₂, .register key₃]
    let schedule : List (Fin 3) :=
      [0, 0, 0, 0, 1, 1, 1, 1, 0] ++ List.replicate 8 2 ++ List.replicate 4 1
    ∃ p : Plane (EngineTunnel Unit × KeyMap Engine.PeerEntry),
      openAt (trialHost [none]) trialPath trialPool ({}, ∅) = .ok p ∧
      let s := p.afterAll Engine.bare [.call (.start trialSettings), .call (.register key₁)]
      let q := (Task.interleave schedule (fun i => (demands i).task b) s).2
      s.registry.addresses = ["10.0.0.2/32"] ∧
        q.registry.addresses = ["10.0.0.3/32", "10.0.0.2/32"] ∧
        ∀ k₁ k₂ a, q.Names k₁ a → q.Names k₂ a → k₁ = k₂ := by
  intro key₁ key₂ key₃ b demands schedule
  let p : Plane (EngineTunnel Unit × KeyMap Engine.PeerEntry) := trial ({}, ∅) []
  have hopen : openAt (trialHost [none]) trialPath trialPool ({}, ∅) = .ok p := openAt_trial _ []
  -- what is computed of the control plane before the calls, and of each moment on the way
  obtain ⟨hrunning, hkeys, hreserved, haddresses, hlast, hmoments⟩ :
      let s := p.afterAll Engine.bare [.call (.start trialSettings), .call (.register key₁)]
      let reached := fun earlier => (Task.interleave earlier (fun i => (demands i).task b) s).2
      s.running.isSome = true ∧ s.registry.peers.keys = [key₁] ∧
        (s.registry.peers.get? key₁).all (fun record =>
          (Ipv4.ofEntry? record.allowedAddress).all fun a =>
            s.allocator.reserved.contains a.toNat) = true ∧
        s.registry.addresses = ["10.0.0.2/32"] ∧
        (reached schedule).registry.addresses = ["10.0.0.3/32", "10.0.0.2/32"] ∧
        ∀ earlier ∈ schedule.inits, (reached earlier).CanStrike := by decide +kernel
  have honce : ∀ i j key, demands i = .erase key → demands j = .erase key → i = j := by
    have hinjective : ∀ i j, demands i = demands j → i = j := by decide +kernel
    exact fun i j key hi hj => hinjective i j (hi.trans hj.symm)
  clear_value p schedule demands
  obtain ⟨device, hoperating⟩ := operating_afterAll hopen _ hrunning
  refine ⟨p, hopen, ?_⟩
  -- the rest of the proof need not look into what was started
  dsimp only at *
  generalize p.afterAll Engine.bare [.call (.start trialSettings), .call (.register key₁)] = s at *
  have honly : ∀ k a, s.Names k a → k = key₁ := by
    rintro k a ⟨record, hrecord, -⟩
    have hmem := KeyMap.mem_keys_of_get? hrecord
    rw [hkeys] at hmem
    exact List.mem_singleton.mp hmem
  refine ⟨haddresses, hlast, ?_⟩
  refine (addresses_stay_apart b hoperating.sound (fun k₁ k₂ a h₁ h₂ => ?_) demands honce
    (fun i k a _ hnames _ => ?_) schedule fun earlier hearlier => ?_).1
  · rw [honly k₁ a h₁, honly k₂ a h₂]
  · obtain rfl := honly k a hnames
    obtain ⟨record, hrecord, haddress⟩ := hnames
    rw [hrecord, Option.all_some, haddress, Option.all_some] at hreserved
    exact List.contains_iff_mem.mp hreserved
  · exact hmoments earlier ((List.mem_inits earlier schedule).mpr hearlier)

/-- The same calls in the same order, when the removed client was registered by an earlier process. A
registration allocates its address before it is taken back, and the next registration is given it
again. -/
theorem two_clients_of_one_address :
    let key₁ := "xTIBA5rboUvnH4htodjb6e697QjLERt1NAB4mZqp8Dg="
    let key₂ := "HIgo9xNzJMWLKASShiTqIybxZ0U3wGLiUeJ1PKf8ykw="
    let key₃ := "TrMvSoP4jYQlY6RIzBgbssQqY3vxI2Pi+y71lOWWXX0="
    let demands : Fin 3 → Demand := ![.erase key₁, .register key₂, .register key₃]
    let schedule : List (Fin 3) :=
      [0, 0, 0, 0, 1, 1, 1, 1, 0] ++ List.replicate 8 2 ++ List.replicate 4 1
    let s := (trial ({}, ∅) [] : Plane (EngineTunnel Unit × KeyMap Engine.PeerEntry)).afterAll
      Engine.bare [.call (.start trialSettings), .call (.register key₁), .restart ∅,
        .call (.start trialSettings)]
    let ended := Task.interleave schedule
      (fun i => (demands i).task (EngineTunnel.backend Engine.bare)) s
    s.registry.addresses = ["10.0.0.2/32"] ∧
      (∀ i, (ended.1 i).result?.any (fun reply => ! reply.isFailed) = true) ∧
      ended.2.registry.peers.keys = [key₂, key₃] ∧
      ended.2.registry.addresses = ["10.0.0.2/32", "10.0.0.2/32"] := by
  decide +kernel

end Plane

end OverlayVpn
