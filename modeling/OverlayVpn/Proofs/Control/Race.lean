import OverlayVpn.Proofs.Control.Registering
import OverlayVpn.Proofs.Control.Runs
import OverlayVpn.Proofs.Pool.Shared

set_option autoImplicit false

/-! # Callers that register one key at once

All callers allocate before one of them has written its address down, so that each may tell the
engine an address of its own, and the engine adds these up. The first caller to write its address
down wins. Every other caller then either finds the winner's record, or has told the engine an
address that is not the winner's; such a caller drops the peer and puts the winner's address back,
while others may still add theirs. What carries through is `Mirrored`: an address that the engine
allows beside the winner's belongs to a caller that has yet to drop the peer, and where the winner's
is missing there is a caller that has yet to put it back. -/

namespace OverlayVpn

namespace Plane

open RegisterPoint

variable {ι : Type}

namespace RegisterPoint

/-- The address that a call has told the engine while it does not know of a winner, or before it
has dropped the peer. -/
def told : RegisterPoint → Option Ipv4
  | recording _ address | dropping address _ => some address
  | _ => none

/-- Whether a call is to put the winner's address back. -/
def reinstates : RegisterPoint → Bool
  | reinstating .. => true
  | _ => false

/-- A call has written its address down. -/
def Won (address : Ipv4) : RegisterPoint → Prop
  | finding _ own => own = address
  | finished kept result => kept = some address ∧ result.isOk = true
  | _ => False

theorem lease_of_won {point : RegisterPoint} {address : Ipv4} (h : point.Won address) :
    point.lease = some address := by
  cases point with
  | finding running own => exact congrArg some h
  | finished kept result => exact h.1
  | entering | lookingUp | renewing | collecting | allocating | checking | telling | recording
  | readingClock | dropping | reinstating | releasing => exact h.elim

/-- A call ended as it should when `address` is the winner's. -/
def EndsWith (key : String) (address : Ipv4) : Except ControlFault Registration → Prop
  | .ok registration => registration.assignedAddress = (Network.host address).text
  | .error fault => fault = .alreadyRegistered key (Network.host address).text

/-- What a call has seen agrees with what is recorded: nothing so far, or the winner's address. -/
def Fits (known : List String) (key : String) (won : Option Ipv4) : RegisterPoint → Prop
  | renewing _ record => ∃ a, won = some a ∧ record.allowedAddress = (Network.host a).text
  | allocating _ known' => ∀ entry ∈ known', entry ∈ known ∨
      ∃ a, won = some a ∧ entry = (Network.host a).text
  | finding _ own => won = some own
  | readingClock .. => False
  | dropping _ existing | reinstating _ existing =>
    ∃ a, won = some a ∧ existing = (Network.host a).text
  | releasing _ fault => ∃ a, won = some a ∧ fault = .alreadyRegistered key (Network.host a).text
  | finished kept result => ∃ a, won = some a ∧ EndsWith key a result ∧
      ∀ own, kept = some own → own = a
  | _ => True

theorem exists_kept {point : RegisterPoint} {ended : Except ControlFault Registration}
    (h : point.result = some ended) : ∃ kept, point = finished kept ended := by
  cases point with
  | finished kept ended' => exact ⟨kept, congrArg _ (Option.some.inj h)⟩
  | entering | lookingUp | renewing | collecting | allocating | checking | telling | recording
  | finding | readingClock | dropping | reinstating | releasing => cases h

/-- A call that saw no winner is where it may be when there is one. -/
theorem Fits.of_none {known : List String} {key : String} {point : RegisterPoint}
    (h : Fits known key none point) (winner : Ipv4) : Fits known key (some winner) point := by
  cases point with
  | allocating running known' =>
      intro entry hentry
      rcases h entry hentry with hbefore | ⟨a, ha, -⟩
      · exact Or.inl hbefore
      · cases ha
  | renewing | dropping | reinstating | releasing | finished =>
      obtain ⟨a, ha, -⟩ := h
      cases ha
  | finding => cases h
  | readingClock => exact h
  | entering | lookingUp | collecting | checking | telling | recording => trivial

end RegisterPoint

/-! ## What the engine allows -/

/-- What the engine allows the key while calls stand at their points. -/
structure Mirrored (won : Option Ipv4) (points : ι → RegisterPoint) (ips : List String) : Prop where
  allowed : ∀ entry ∈ ips, ∃ a, entry = (Network.host a).text ∧
    (won = some a ∨ ∃ i, (points i).told = some a)
  pending : won = none → ∀ i a, (points i).told = some a → (Network.host a).text ∈ ips
  restored : ∀ a, won = some a →
    (Network.host a).text ∈ ips ∨ ∃ i, (points i).reinstates = true

section

variable [DecidableEq ι] {won : Option Ipv4} {points : ι → RegisterPoint} {ips : List String}
  {i : ι} {point : RegisterPoint} {a : Ipv4}

/-- What a point says of a call, after one call has moved to a point of which it says the same. -/
theorem update_same {α : Type} (f : RegisterPoint → α) (h : f point = f (points i)) (j : ι) :
    f (Function.update points i point j) = f (points j) := by
  by_cases hj : j = i
  · rw [hj, Function.update_self, h]
  · rw [Function.update_of_ne hj]

/-- What another call has told the engine stays, when a call moves that had told nothing. -/
theorem told_update (hbefore : (points i).told = none) {j : ι} {b : Ipv4}
    (hj : (points j).told = some b) : (Function.update points i point j).told = some b := by
  have hne : j ≠ i := by
    rintro rfl
    rw [hbefore] at hj
    cases hj
  rw [Function.update_of_ne hne, hj]

theorem Mirrored.move (h : Mirrored won points ips) (htold : point.told = (points i).told)
    (hreinstates : point.reinstates = (points i).reinstates) :
    Mirrored won (Function.update points i point) ips := by
  have htold' := update_same told htold
  have hreinstates' := update_same reinstates hreinstates
  refine ⟨fun entry hentry => ?_, fun hnone j b hj => ?_, fun b hb => ?_⟩
  · simp only [htold']
    exact h.allowed entry hentry
  · rw [htold'] at hj
    exact h.pending hnone j b hj
  · simp only [hreinstates']
    exact h.restored b hb

/-- A call tells the engine its address. -/
theorem Mirrored.tell (h : Mirrored won points ips) (hbefore : (points i).told = none)
    (hreinstates : point.reinstates = (points i).reinstates) (htold : point.told = some a) :
    Mirrored won (Function.update points i point) (ips ++ [(Network.host a).text]) := by
  have hreinstates' := update_same reinstates hreinstates
  refine ⟨fun entry hentry => ?_, fun hnone j b hj => ?_, fun b hb => ?_⟩
  · -- the new entry is this call's, which is yet to drop the peer if it loses
    rcases List.mem_append.mp hentry with hentry | hentry
    · obtain ⟨b, heq, hwon | ⟨j, hj⟩⟩ := h.allowed entry hentry
      · exact ⟨b, heq, Or.inl hwon⟩
      · exact ⟨b, heq, Or.inr ⟨j, told_update hbefore hj⟩⟩
    · exact ⟨a, List.mem_singleton.mp hentry, Or.inr ⟨i, by rw [Function.update_self, htold]⟩⟩
  · rw [List.mem_append]
    by_cases hji : j = i
    · subst hji
      rw [Function.update_self, htold] at hj
      obtain rfl := Option.some.inj hj
      exact Or.inr (List.mem_singleton.mpr rfl)
    · rw [Function.update_of_ne hji] at hj
      exact Or.inl (h.pending hnone j b hj)
  · simp only [hreinstates']
    exact (h.restored b hb).imp_left (List.mem_append_left _)

/-- The first call writes its address down. -/
theorem Mirrored.win (h : Mirrored none points ips) (hbefore : (points i).told = some a) :
    Mirrored (some a) (Function.update points i point) ips := by
  refine ⟨fun entry hentry => ?_, fun hnone => (by cases hnone), fun b hb => ?_⟩
  · obtain ⟨b, heq, hnone | ⟨j, hj⟩⟩ := h.allowed entry hentry
    · cases hnone
    · by_cases hji : j = i
      · subst hji
        exact ⟨b, heq, Or.inl (by rw [← hbefore, hj])⟩
      · exact ⟨b, heq, Or.inr ⟨j, by rw [Function.update_of_ne hji, hj]⟩⟩
  · -- while there was no winner, the engine has kept all that it was told
    obtain rfl := Option.some.inj hb
    exact Or.inl (h.pending rfl i a hbefore)

/-- A call drops the peer, and is to put it back. -/
theorem Mirrored.drop (hpoint : point.reinstates = true) :
    Mirrored (some a) (Function.update points i point) [] where
  allowed := by simp
  pending := by intro hnone; cases hnone
  restored := fun _ _ => Or.inr ⟨i, by rw [Function.update_self, hpoint]⟩

/-- A call tells the engine the winner's address. -/
theorem Mirrored.renew (h : Mirrored (some a) points ips) (hbefore : (points i).told = none) :
    Mirrored (some a) (Function.update points i point) (ips ++ [(Network.host a).text]) := by
  refine ⟨fun entry hentry => ?_, fun hnone => (by cases hnone), fun b hb => ?_⟩
  · rcases List.mem_append.mp hentry with hentry | hentry
    · obtain ⟨b, heq, hwon | ⟨j, hj⟩⟩ := h.allowed entry hentry
      · exact ⟨b, heq, Or.inl hwon⟩
      · exact ⟨b, heq, Or.inr ⟨j, told_update hbefore hj⟩⟩
    · exact ⟨a, List.mem_singleton.mp hentry, Or.inl rfl⟩
  · obtain rfl := Option.some.inj hb
    exact Or.inl (List.mem_append_right _ (List.mem_singleton.mpr rfl))

end

/-- When no call has the engine changed any more, the engine allows the winner's address alone. -/
theorem Mirrored.mem_iff {points : ι → RegisterPoint} {ips : List String} {a : Ipv4}
    (h : Mirrored (some a) points ips) (htold : ∀ i, (points i).told = none)
    (hreinstates : ∀ i, (points i).reinstates = false) (ip : String) :
    ip ∈ ips ↔ ip = (Network.host a).text := by
  constructor
  · intro hip
    obtain ⟨b, heq, hb | ⟨i, hi⟩⟩ := h.allowed ip hip
    · rw [heq, ← Option.some.inj hb]
    · rw [htold i] at hi
      cases hi
  · rintro rfl
    refine (h.restored a rfl).resolve_right ?_
    rintro ⟨i, hi⟩
    rw [hreinstates i] at hi
    cases hi

/-! ## The race -/

variable {ω δ : Type}

/-- The registry as the race found it, or with the winner's record. -/
def Ledger (start : Plane (EngineTunnel δ × ω)) (key : String) (won : Option Ipv4)
    (p : Plane (EngineTunnel δ × ω)) : Prop :=
  match won with
  | none => p.registry = start.registry ∧ p.host.disk = start.host.disk
  | some a => ∃ record : RegisteredPeer, record.allowedAddress = (Network.host a).text ∧
      p.registry.peers = start.registry.peers.insert key record

/-- Calls that register one key stand at their points since a control plane was `start`; the
address `won`, if there is one, is written down. -/
structure Race (peersOf : δ → ω → KeyMap Engine.PeerEntry) (device : δ)
    (start : Plane (EngineTunnel δ × ω)) (text : String) (key : Key) (won : Option Ipv4)
    (points : ι → RegisterPoint) (p : Plane (EngineTunnel δ × ω)) : Prop where
  operating : Operating device p
  leases : Allocator.Leases start.allocator (fun i => (points i).lease) p.allocator
  ledger : Ledger start text won p
  fits : ∀ i, (points i).Fits start.registry.addresses text won
  winner : ∀ a, won = some a → ∃ i, (points i).Won a
  mirrored : Mirrored won points (Engine.allowedIps (peersOf device p.backend.2) key)

section

variable {e : Engine ω δ} {peersOf : δ → ω → KeyMap Engine.PeerEntry} {device : δ}
  {start p : Plane (EngineTunnel δ × ω)} {text : String} {key : Key} {won : Option Ipv4}
  {points : ι → RegisterPoint} {i : ι} {point : RegisterPoint}

theorem Ledger.lookUp (h : Ledger start text won p)
    (hnew : start.registry.peers.get? text = none) :
    match won with
    | none => p.registry.peers.get? text = none
    | some a => ∃ record, p.registry.peers.get? text = some record ∧
        record.allowedAddress = (Network.host a).text := by
  cases won with
  | none => rw [h.1]; exact hnew
  | some a =>
      obtain ⟨record, haddress, hpeers⟩ := h
      exact ⟨record, by rw [hpeers, KeyMap.get?_insert_self], haddress⟩

/-- The recorded addresses are those from before the race and the winner's. -/
theorem Ledger.addresses (h : Ledger start text won p) {entry : String}
    (hentry : entry ∈ p.registry.addresses) : entry ∈ start.registry.addresses ∨
      ∃ a, won = some a ∧ entry = (Network.host a).text := by
  cases won with
  | none => exact Or.inl (h.1 ▸ hentry)
  | some a =>
      obtain ⟨record, haddress, hpeers⟩ := h
      obtain ⟨other, hother, rfl⟩ := List.mem_map.mp hentry
      obtain ⟨k, hk⟩ := KeyMap.mem_values_iff.mp hother
      rw [hpeers, KeyMap.get?_insert] at hk
      split at hk
      · obtain rfl := Option.some.inj hk
        exact Or.inr ⟨a, rfl, haddress⟩
      · exact Or.inl (List.mem_map.mpr ⟨other, KeyMap.mem_values_iff.mpr ⟨k, hk⟩, rfl⟩)

theorem Race.fits_at (h : Race peersOf device start text key won points p)
    (hpoint : points i = point) : point.Fits start.registry.addresses text won := by
  rw [← hpoint]
  exact h.fits i

/-- A winner has leased its address, so that no other call has it. -/
theorem Race.ne_winner (h : Race peersOf device start text key won points p) {a own : Ipv4}
    (hwon : won = some a) (hlease : (points i).lease = some own) (hlost : ¬(points i).Won a) :
    own ≠ a := by
  rintro rfl
  obtain ⟨j, hj⟩ := h.winner own hwon
  have hsame := h.leases.apart i j own hlease (lease_of_won hj)
  subst hsame
  exact hlost hj

/-- A race begins where the engine knows nothing of the key. -/
theorem race_start (hoperating : Operating device start)
    (hunknown : (peersOf device start.backend.2).get? key.hex = none) :
    Race peersOf device start text key none (fun _ : ι => .entering) start where
  operating := hoperating
  leases := Allocator.leases_none hoperating.sound
  ledger := ⟨rfl, rfl⟩
  fits := fun _ => trivial
  winner := by intro a ha; cases ha
  mirrored := by
    have hips : Engine.allowedIps (peersOf device start.backend.2) key = [] := by
      rw [Engine.allowedIps, hunknown]
      rfl
    rw [hips]
    exact ⟨by simp, fun _ i a hi => (by cases hi), fun a ha => (by cases ha)⟩

variable [DecidableEq ι]

/-- A call moves on, and the winner stays the same. -/
theorem Race.advance (h : Race peersOf device start text key won points p)
    {q : Plane (EngineTunnel δ × ω)} {before : RegisterPoint} (hpoint : points i = before)
    (hoperating : Operating device q)
    (hleases : Allocator.Leases start.allocator
      (Function.update (fun j => (points j).lease) i point.lease) q.allocator)
    (hledger : Ledger start text won q) (hwon : ∀ a, before.Won a → point.Won a)
    (hfits : point.Fits start.registry.addresses text won)
    (hmirrored : Mirrored won (Function.update points i point)
      (Engine.allowedIps (peersOf device q.backend.2) key)) :
    Race peersOf device start text key won (Function.update points i point) q where
  operating := hoperating
  leases := by
    have hcomp : (fun j => (Function.update points i point j).lease) =
        Function.update (fun j => (points j).lease) i point.lease := by
      funext j
      exact Function.apply_update (fun _ => RegisterPoint.lease) points i point j
    rw [hcomp]
    exact hleases
  ledger := hledger
  fits := by
    rw [Function.forall_update_iff points fun _ (pt : RegisterPoint) =>
      pt.Fits start.registry.addresses text won]
    exact ⟨hfits, fun j _ => h.fits j⟩
  winner := by
    intro a ha
    obtain ⟨j, hj⟩ := h.winner a ha
    by_cases hji : j = i
    · subst hji
      rw [hpoint] at hj
      exact ⟨j, by rw [Function.update_self]; exact hwon a hj⟩
    · exact ⟨j, by rw [Function.update_of_ne hji]; exact hj⟩
  mirrored := hmirrored

theorem Race.leases_same (h : Race peersOf device start text key won points p)
    {before : RegisterPoint} (hpoint : points i = before) (hlease : point.lease = before.lease) :
    Allocator.Leases start.allocator
      (Function.update (fun j => (points j).lease) i point.lease) p.allocator := by
  rw [hlease, ← hpoint, Function.update_eq_self]
  exact h.leases

theorem Ledger.of_eq {q : Plane (EngineTunnel δ × ω)} (h : Ledger start text won p)
    (hregistry : q.registry = p.registry) (hdisk : q.host.disk = p.host.disk) :
    Ledger start text won q := by
  cases won with
  | none => exact ⟨hregistry.trans h.1, hdisk.trans h.2⟩
  | some a =>
      obtain ⟨record, haddress, hpeers⟩ := h
      exact ⟨record, haddress, by rw [hregistry, hpeers]⟩

/-- A call moves on after a request to the engine. -/
theorem Race.configure (h : Race peersOf device start text key won points p)
    {before : RegisterPoint} (hpoint : points i = before) {backend : EngineTunnel δ × ω}
    (hup : backend.1.running = true) (hdevice : backend.1.device = some device)
    (hlease : point.lease = before.lease) (hwon : ∀ a, before.Won a → point.Won a)
    (hfits : point.Fits start.registry.addresses text won)
    (hmirrored : Mirrored won (Function.update points i point)
      (Engine.allowedIps (peersOf device backend.2) key)) :
    Race peersOf device start text key won (Function.update points i point) { p with backend } :=
  h.advance hpoint ⟨h.operating.running, hup, hdevice, h.operating.sound⟩
    (h.leases_same hpoint hlease) (h.ledger.of_eq rfl rfl) hwon hfits hmirrored

/-- A call moves on after a request to the allocator. -/
theorem Race.relet (h : Race peersOf device start text key won points p)
    {before : RegisterPoint} (hpoint : points i = before) {allocator : Allocator} {clock : Clock}
    (hleases : Allocator.Leases start.allocator
      (Function.update (fun j => (points j).lease) i point.lease) allocator)
    (htold : point.told = before.told) (hreinstates : point.reinstates = before.reinstates)
    (hwon : ∀ a, before.Won a → point.Won a)
    (hfits : point.Fits start.registry.addresses text won) :
    Race peersOf device start text key won (Function.update points i point)
      { p with allocator, host := { p.host with clock } } :=
  h.advance hpoint ⟨h.operating.running, h.operating.up, h.operating.device_eq, hleases.sound⟩
    hleases (h.ledger.of_eq rfl rfl) hwon hfits
    (h.mirrored.move (hpoint ▸ htold) (hpoint ▸ hreinstates))

/-- A call moves on and leaves the control plane as it is. -/
theorem Race.move (h : Race peersOf device start text key won points p) {before : RegisterPoint}
    (hpoint : points i = before) (hlease : point.lease = before.lease)
    (htold : point.told = before.told) (hreinstates : point.reinstates = before.reinstates)
    (hwon : ∀ a, before.Won a → point.Won a)
    (hfits : point.Fits start.registry.addresses text won) :
    Race peersOf device start text key won (Function.update points i point) p :=
  h.configure hpoint h.operating.up h.operating.device_eq hlease hwon hfits
    (h.mirrored.move (hpoint ▸ htold) (hpoint ▸ hreinstates))

/-! ## The steps -/

/-- The race goes on after the step of a call. -/
def GoesOn (e : Engine ω δ) (peersOf : δ → ω → KeyMap Engine.PeerEntry) (device : δ)
    (start : Plane (EngineTunnel δ × ω)) (text : String) (key : Key) (points : ι → RegisterPoint)
    (p : Plane (EngineTunnel δ × ω)) (i : ι) : Prop :=
  ∃ won, Race peersOf device start text key won
    (Function.update points i (registerStep (EngineTunnel.backend e) text (points i) p).1)
    (registerStep (EngineTunnel.backend e) text (points i) p).2

/-- A call that enters finds the control plane running. -/
theorem goesOn_entering (h : Race peersOf device start text key won points p)
    (hpoint : points i = .entering) : GoesOn e peersOf device start text key points p i := by
  obtain ⟨running, hrunning⟩ := Option.isSome_iff_exists.mp h.operating.running
  rw [GoesOn, hpoint]
  simp only [registerStep, hrunning]
  exact ⟨won, h.move hpoint rfl rfl rfl (fun a ha => ha.elim) trivial⟩

theorem goesOn_lookingUp (h : Race peersOf device start text key won points p)
    (hnew : start.registry.peers.get? text = none) {running : ServerRun}
    (hpoint : points i = .lookingUp running) :
    GoesOn e peersOf device start text key points p i := by
  have hlook := h.ledger.lookUp hnew
  rw [GoesOn, hpoint]
  cases won with
  | none =>
      simp only [registerStep, hlook]
      exact ⟨none, h.move hpoint rfl rfl rfl (fun a ha => ha.elim) trivial⟩
  | some winner =>
      obtain ⟨record, hrecord, haddress⟩ := hlook
      simp only [registerStep, hrecord]
      exact ⟨some winner,
        h.move hpoint rfl rfl rfl (fun a ha => ha.elim) ⟨winner, rfl, haddress⟩⟩

theorem goesOn_collecting (h : Race peersOf device start text key won points p)
    {running : ServerRun} (hpoint : points i = .collecting running) :
    GoesOn e peersOf device start text key points p i := by
  rw [GoesOn, hpoint]
  exact ⟨won, h.move hpoint rfl rfl rfl (fun a ha => ha.elim)
    fun entry hentry => h.ledger.addresses hentry⟩

/-- A second look finds nobody, or a winner whose address is another. -/
theorem goesOn_checking (h : Race peersOf device start text key won points p)
    (hnew : start.registry.peers.get? text = none) {running : ServerRun} {own : Ipv4}
    (hpoint : points i = .checking running own) :
    GoesOn e peersOf device start text key points p i := by
  have hlook := h.ledger.lookUp hnew
  rw [GoesOn, hpoint]
  cases won with
  | none =>
      simp only [registerStep, hlook]
      exact ⟨none, h.move hpoint rfl rfl rfl (fun a ha => ha.elim) trivial⟩
  | some winner =>
      obtain ⟨record, hrecord, haddress⟩ := hlook
      have hne : own ≠ winner :=
        h.ne_winner (i := i) rfl (by rw [hpoint]; rfl) (by rw [hpoint]; exact id)
      have hrival : rival (Network.host own).text (some record) = some record := by
        have hother : record.allowedAddress ≠ (Network.host own).text := by
          rw [haddress]
          exact fun hsame => hne (Network.host_text_inj hsame).symm
        simp [rival, hother]
      simp only [registerStep, hrecord, hrival]
      refine ⟨some winner, h.move hpoint rfl rfl rfl (fun a ha => ha.elim) ⟨winner, rfl, ?_⟩⟩
      rw [haddress]

/-- The winner finds its own record. -/
theorem goesOn_finding (h : Race peersOf device start text key won points p)
    (hnew : start.registry.peers.get? text = none) {running : ServerRun} {own : Ipv4}
    (hpoint : points i = .finding running own) :
    GoesOn e peersOf device start text key points p i := by
  have hwon : won = some own := h.fits_at hpoint
  subst hwon
  obtain ⟨record, hrecord, haddress⟩ := h.ledger.lookUp hnew
  rw [GoesOn, hpoint]
  simp only [registerStep, hrecord]
  refine ⟨some own, h.move hpoint rfl rfl rfl ?_ ⟨own, rfl, rfl, ?_⟩⟩
  · rintro a rfl
    exact ⟨rfl, rfl⟩
  · rintro a hown
    exact (Option.some.inj hown).symm

/-- A call that finds the winner's record tells the engine the winner's address. -/
theorem goesOn_renewing (h : Race peersOf device start text key won points p)
    (hobeys : Engine.Obeys e peersOf) (hkey : Key.read text = .ok key) {running : ServerRun}
    {record : RegisteredPeer} (hpoint : points i = .renewing running record) :
    GoesOn e peersOf device start text key points p i := by
  obtain ⟨winner, rfl, haddress⟩ := h.fits_at hpoint
  have hline := Engine.onLine_allowedIp (Network.host winner)
  obtain ⟨w, htold, happlies⟩ := EngineTunnel.allowPeer_of_obeys hobeys h.operating.up
    h.operating.device_eq hkey hline
  rw [GoesOn, hpoint]
  simp only [registerStep, haddress, htold]
  refine ⟨some winner, h.configure hpoint h.operating.up h.operating.device_eq rfl
    (fun a ha => ha.elim) ⟨winner, rfl, rfl, fun a hown => (by cases hown)⟩ ?_⟩
  rw [happlies, Engine.allowedIps_allowBody _ _ hline]
  exact h.mirrored.renew (by rw [hpoint]; rfl)

/-- A call tells the engine the address that it has leased. -/
theorem goesOn_telling (h : Race peersOf device start text key won points p)
    (hobeys : Engine.Obeys e peersOf) (hkey : Key.read text = .ok key) {running : ServerRun}
    {own : Ipv4} (hpoint : points i = .telling running own) :
    GoesOn e peersOf device start text key points p i := by
  have hline := Engine.onLine_allowedIp (Network.host own)
  obtain ⟨w, htold, happlies⟩ := EngineTunnel.allowPeer_of_obeys hobeys h.operating.up
    h.operating.device_eq hkey hline
  rw [GoesOn, hpoint]
  simp only [registerStep, htold]
  refine ⟨won, h.configure hpoint h.operating.up h.operating.device_eq rfl
    (fun a ha => ha.elim) trivial ?_⟩
  rw [happlies, Engine.allowedIps_allowBody _ _ hline]
  exact h.mirrored.tell (by rw [hpoint]; rfl) (by rw [hpoint]; rfl) rfl

/-- A call that lost drops the peer. -/
theorem goesOn_dropping (h : Race peersOf device start text key won points p)
    (hobeys : Engine.Obeys e peersOf) (hkey : Key.read text = .ok key) {own : Ipv4}
    {existing : String} (hpoint : points i = .dropping own existing) :
    GoesOn e peersOf device start text key points p i := by
  obtain ⟨winner, rfl, hexisting⟩ := h.fits_at hpoint
  obtain ⟨w, hdropped, happlies⟩ := EngineTunnel.erasePeer_of_obeys hobeys h.operating.up
    h.operating.device_eq hkey
  rw [GoesOn, hpoint]
  simp only [registerStep, hdropped]
  refine ⟨some winner, h.configure hpoint h.operating.up h.operating.device_eq rfl
    (fun a ha => ha.elim) ⟨winner, rfl, hexisting⟩ ?_⟩
  rw [happlies, Engine.allowedIps_dropBody]
  exact Mirrored.drop rfl

/-- A call that lost puts the winner's address back. -/
theorem goesOn_reinstating (h : Race peersOf device start text key won points p)
    (hobeys : Engine.Obeys e peersOf) (hkey : Key.read text = .ok key) {own : Ipv4}
    {existing : String} (hpoint : points i = .reinstating own existing) :
    GoesOn e peersOf device start text key points p i := by
  obtain ⟨winner, rfl, rfl⟩ := h.fits_at hpoint
  have hline := Engine.onLine_allowedIp (Network.host winner)
  obtain ⟨w, htold, happlies⟩ := EngineTunnel.allowPeer_of_obeys hobeys h.operating.up
    h.operating.device_eq hkey hline
  rw [GoesOn, hpoint]
  simp only [registerStep, htold]
  refine ⟨some winner, h.configure hpoint h.operating.up h.operating.device_eq rfl
    (fun a ha => ha.elim) ⟨winner, rfl, rfl⟩ ?_⟩
  rw [happlies, Engine.allowedIps_allowBody _ _ hline]
  exact h.mirrored.renew (by rw [hpoint]; rfl)

theorem goesOn_releasing (h : Race peersOf device start text key won points p) {own : Ipv4}
    {fault : ControlFault} (hpoint : points i = .releasing own fault) :
    GoesOn e peersOf device start text key points p i := by
  obtain ⟨winner, rfl, hfault⟩ := h.fits_at hpoint
  rw [GoesOn, hpoint]
  have hleased : (points i).lease = some own := by rw [hpoint]; rfl
  exact ⟨some winner, h.relet hpoint (h.leases.release hleased) rfl rfl (fun a ha => ha.elim)
    ⟨winner, rfl, hfault, fun a hown => (by cases hown)⟩⟩

/-- A call gets an address that no other call has. -/
theorem goesOn_allocating [Finite ι] (h : Race peersOf device start text key won points p)
    {free : ι → Ipv4} (hinjective : Function.Injective free)
    (hfree : ∀ j, start.allocator.Free start.registry.addresses (free j)) {running : ServerRun}
    {known : List String} (hpoint : points i = .allocating running known) :
    GoesOn e peersOf device start text key points p i := by
  have hfits := h.fits_at hpoint
  have hnone : (points i).lease = none := by rw [hpoint]; rfl
  have hknown : ∀ entry ∈ known, entry ∈ start.registry.addresses ∨ ∃ j address,
      (points j).lease = some address ∧ entry = (Network.host address).text := by
    intro entry hentry
    -- what is known beside the addresses from before is the winner's, which is leased
    refine (hfits entry hentry).imp_right ?_
    rintro ⟨a, ha, heq⟩
    obtain ⟨j, hj⟩ := h.winner a ha
    exact ⟨j, a, lease_of_won hj, heq⟩
  obtain ⟨own, hallocated, hleases⟩ :=
    h.leases.allocate hinjective hfree hnone hknown p.host.clock.read.1
  have hrun : (allocate known).run p = (.ok (.host own), { p with
      allocator := p.allocator.grant own.toNat p.host.clock.read.1
      host := { p.host with clock := p.host.clock.read.2 } }) := by
    simp only [allocate, Task.run_atomic, hallocated]
  rw [GoesOn, hpoint]
  simp only [registerStep, hrun]
  exact ⟨won, h.relet hpoint hleases rfl rfl (fun a ha => ha.elim) trivial⟩

/-- The first call that writes its address down wins. -/
theorem Race.win (h : Race peersOf device start text key none points p) {running : ServerRun}
    {own : Ipv4} (hpoint : points i = .recording running own) {record : RegisteredPeer}
    (haddress : record.allowedAddress = (Network.host own).text) {registry : Registry} {host : Host}
    (hpeers : registry.peers = p.registry.peers.insert text record) :
    Race peersOf device start text key (some own)
      (Function.update points i (.finding running own)) { p with registry, host } where
  operating := ⟨h.operating.running, h.operating.up, h.operating.device_eq, h.operating.sound⟩
  leases := by
    have hlease : (RegisterPoint.finding running own).lease = (points i).lease := by
      rw [hpoint]
      rfl
    simp only [update_same RegisterPoint.lease hlease]
    exact h.leases
  ledger := ⟨record, haddress, by rw [hpeers, h.ledger.1]⟩
  fits := by
    rw [Function.forall_update_iff points fun _ (pt : RegisterPoint) =>
      pt.Fits start.registry.addresses text (some own)]
    exact ⟨rfl, fun j _ => (h.fits j).of_none own⟩
  winner := by
    rintro a ha
    obtain rfl := Option.some.inj ha
    exact ⟨i, by rw [Function.update_self]; rfl⟩
  mirrored := h.mirrored.win (by rw [hpoint]; rfl)

theorem goesOn_recording (h : Race peersOf device start text key won points p)
    (hnew : start.registry.peers.get? text = none)
    (hwrites : ∀ record, (start.registry.commit start.host.disk
      (start.registry.peers.insert text record)).1.isOk = true) {running : ServerRun} {own : Ipv4}
    (hpoint : points i = .recording running own) :
    GoesOn e peersOf device start text key points p i := by
  have hlook := h.ledger.lookUp hnew
  have hadds := Registry.add_cases p.registry p.host text (Network.host own).text
  rw [GoesOn, hpoint]
  cases won with
  | none =>
      -- nobody has a record: the address is written down, since the file can be written
      rcases hadds with ⟨record, hfound, -⟩ | ⟨record, hfound, -⟩ |
        ⟨-, record, rfl, ⟨disk, -, hadd⟩ | ⟨error, disk, hfailed, -⟩⟩
      · rw [hlook] at hfound
        cases hfound
      · rw [hlook] at hfound
        cases hfound
      · simp only [registerStep, Plane.record, Task.run_atomic, hadd]
        exact ⟨some own, h.win hpoint rfl rfl⟩
      · have hok := hwrites ⟨text, (Network.host own).text, p.host.clock.read.1⟩
        rw [← h.ledger.1, ← h.ledger.2, Registry.commit, hfailed] at hok
        cases hok
  | some winner =>
      obtain ⟨found, hrecord, haddress⟩ := hlook
      have hne : own ≠ winner :=
        h.ne_winner (i := i) rfl (by rw [hpoint]; rfl) (by rw [hpoint]; exact id)
      -- the winner's record is there, and this call's address is another
      rcases hadds with ⟨record, hfound, hsame, -⟩ | ⟨record, hfound, -, hadd⟩ | ⟨hnone, -⟩
      · obtain rfl := Option.some.inj (hrecord.symm.trans hfound)
        exact absurd (Network.host_text_inj (hsame.symm.trans haddress)) hne
      · obtain rfl := Option.some.inj (hrecord.symm.trans hfound)
        simp only [registerStep, Plane.record, Task.run_atomic, hadd]
        exact ⟨some winner,
          h.move hpoint rfl rfl rfl (fun a ha => ha.elim) ⟨winner, rfl, haddress⟩⟩
      · rw [hrecord] at hnone
        cases hnone

/-- **Whatever call takes its next step, the race goes on.** -/
theorem race_goesOn [Finite ι] (h : Race peersOf device start text key won points p)
    (hobeys : Engine.Obeys e peersOf) (hkey : Key.read text = .ok key)
    (hnew : start.registry.peers.get? text = none)
    (hwrites : ∀ record, (start.registry.commit start.host.disk
      (start.registry.peers.insert text record)).1.isOk = true) {free : ι → Ipv4}
    (hinjective : Function.Injective free)
    (hfree : ∀ j, start.allocator.Free start.registry.addresses (free j))
    (hlive : (points i).result = none) : GoesOn e peersOf device start text key points p i := by
  cases hpoint : points i with
  | entering => exact goesOn_entering h hpoint
  | lookingUp running => exact goesOn_lookingUp h hnew hpoint
  | renewing running record => exact goesOn_renewing h hobeys hkey hpoint
  | collecting running => exact goesOn_collecting h hpoint
  | allocating running known => exact goesOn_allocating h hinjective hfree hpoint
  | checking running own => exact goesOn_checking h hnew hpoint
  | telling running own => exact goesOn_telling h hobeys hkey hpoint
  | recording running own => exact goesOn_recording h hnew hwrites hpoint
  | finding running own => exact goesOn_finding h hnew hpoint
  | readingClock running own =>
      -- a winner finds its record, and so never needs the present moment
      have hnever : False := h.fits_at hpoint
      exact hnever.elim
  | dropping own existing => exact goesOn_dropping h hobeys hkey hpoint
  | reinstating own existing => exact goesOn_reinstating h hobeys hkey hpoint
  | releasing own fault => exact goesOn_releasing h hpoint
  | finished kept ended =>
      rw [hpoint] at hlive
      cases hlive

end

/-! ## The outcome -/

/-- What calls that register one key have come to when all are done. -/
structure Settled {n : Nat} (peersOf : δ → ω → KeyMap Engine.PeerEntry) (device : δ)
    (start : Plane (EngineTunnel δ × ω)) (text : String) (key : Key)
    (results : Fin n → Except ControlFault Registration) (p : Plane (EngineTunnel δ × ω))
    (a : Ipv4) : Prop where
  some_ok : ∃ i registration, results i = .ok registration
  of_ok : ∀ i registration, results i = .ok registration →
    registration.assignedAddress = (Network.host a).text
  of_error : ∀ i fault, results i = .error fault →
    fault = .alreadyRegistered text (Network.host a).text
  recorded : ∃ record, p.registry.peers.get? text = some record ∧
    record.allowedAddress = (Network.host a).text
  configured : ∃ entry, (peersOf device p.backend.2).get? key.hex = some entry ∧
    ∀ ip, ip ∈ entry.allowedIps ↔ ip = (Network.host a).text
  not_reserved_before : a.toNat ∉ start.allocator.reserved
  reserved : ∀ m, m ∈ p.allocator.reserved ↔ m = a.toNat ∨ m ∈ start.allocator.reserved

section

variable {n : Nat} {peersOf : δ → ω → KeyMap Engine.PeerEntry} {device : δ}
  {start p : Plane (EngineTunnel δ × ω)} {text : String} {key : Key} {won : Option Ipv4}
  {points : Fin n → RegisterPoint} {results : Fin n → Except ControlFault Registration} {a : Ipv4}

/-- A call that is done has seen the winner's address, and keeps no other. -/
theorem Race.fits_finished (h : Race peersOf device start text key won points p) {i : Fin n}
    (hdone : (points i).result = some (results i)) : ∃ kept a, points i = .finished kept (results i) ∧
      won = some a ∧ EndsWith text a (results i) ∧ ∀ own, kept = some own → own = a := by
  obtain ⟨kept, hpoint⟩ := exists_kept hdone
  obtain ⟨a, hwon, hends, hkept⟩ := h.fits_at hpoint
  exact ⟨kept, a, hpoint, hwon, hends, hkept⟩

/-- The winner's address is what the race has added to the reservations. -/
theorem Race.mem_reserved_iff (h : Race peersOf device start text key (some a) points p)
    (hdone : ∀ i, (points i).result = some (results i)) {winner : Fin n}
    (hleased : (points winner).lease = some a) (m : Nat) :
    m ∈ p.allocator.reserved ↔ m = a.toNat ∨ m ∈ start.allocator.reserved := by
  rw [h.leases.mem_reserved]
  constructor
  · rintro (hbefore | ⟨i, own, hi, rfl⟩)
    · exact Or.inr hbefore
    · obtain ⟨kept, a', hpoint, ha', -, hkept⟩ := h.fits_finished (hdone i)
      rw [hpoint] at hi
      rw [hkept own hi, Option.some.inj ha']
      exact Or.inl rfl
  · rintro (rfl | hbefore)
    · exact Or.inr ⟨winner, a, hleased, rfl⟩
    · exact Or.inl hbefore

/-- The engine has the key's peer, and allows it the winner's address alone. -/
theorem Race.configured (h : Race peersOf device start text key (some a) points p)
    (hdone : ∀ i, (points i).result = some (results i)) :
    ∃ entry, (peersOf device p.backend.2).get? key.hex = some entry ∧
      ∀ ip, ip ∈ entry.allowedIps ↔ ip = (Network.host a).text := by
  have htold : ∀ i, (points i).told = none := by
    intro i
    obtain ⟨kept, hpoint⟩ := exists_kept (hdone i)
    rw [hpoint]
    rfl
  have hreinstates : ∀ i, (points i).reinstates = false := by
    intro i
    obtain ⟨kept, hpoint⟩ := exists_kept (hdone i)
    rw [hpoint]
    rfl
  have hips := h.mirrored.mem_iff htold hreinstates
  cases hentry : (peersOf device p.backend.2).get? key.hex with
  | none =>
      have hmem := (hips (Network.host a).text).mpr rfl
      rw [Engine.allowedIps, hentry] at hmem
      cases hmem
  | some entry =>
      rw [Engine.allowedIps, hentry] at hips
      exact ⟨entry, rfl, hips⟩

/-- **A race that is over has one winner.** -/
theorem Race.settled (h : Race peersOf device start text key won points p) (hn : 0 < n)
    (hnew : start.registry.peers.get? text = none)
    (hdone : ∀ i, (points i).result = some (results i)) :
    ∃ a, Settled peersOf device start text key results p a := by
  -- that the first call is done says that there is a winner
  obtain ⟨-, a, -, rfl, -⟩ := h.fits_finished (hdone ⟨0, hn⟩)
  obtain ⟨winner, hwinner⟩ := h.winner a rfl
  have hleased := lease_of_won hwinner
  have hends : ∀ i, EndsWith text a (results i) := by
    intro i
    obtain ⟨-, a', -, ha', hends, -⟩ := h.fits_finished (hdone i)
    obtain rfl := Option.some.inj ha'
    exact hends
  refine ⟨a, ?_, ?_, ?_, h.ledger.lookUp hnew, h.configured hdone, h.leases.fresh winner a hleased,
    h.mem_reserved_iff hdone hleased⟩
  · obtain ⟨kept, hpoint⟩ := exists_kept (hdone winner)
    rw [hpoint] at hwinner
    obtain ⟨-, hok⟩ := hwinner
    cases hresult : results winner with
    | ok registration => exact ⟨winner, registration, hresult⟩
    | error fault =>
        rw [hresult] at hok
        cases hok
  · intro i registration hi
    have hend := hends i
    rwa [hi] at hend
  · intro i fault hi
    have hend := hends i
    rwa [hi] at hend

end

/-- **Calls that register one key at once settle on one address**, whatever the order of their
steps, when the engine keeps to the protocol, the registry's file can be written and there are as
many free addresses as calls. One call at least succeeds; every other call either succeeds with the
same address or is told that the key is registered with it. The registry records this address, the
engine allows the key this address alone, and nothing else stays reserved. -/
theorem racing_registrations_settle {n : Nat} (hn : 0 < n) {e : Engine ω δ}
    {peersOf : δ → ω → KeyMap Engine.PeerEntry} (hobeys : Engine.Obeys e peersOf) {device : δ}
    {p : Plane (EngineTunnel δ × ω)} (hoperating : Operating device p) {text : String} {key : Key}
    (hkey : Key.read text = .ok key) (hnew : p.registry.peers.get? text = none)
    (hunknown : (peersOf device p.backend.2).get? key.hex = none)
    (hwrites : ∀ record,
      (p.registry.commit p.host.disk (p.registry.peers.insert text record)).1.isOk = true)
    {free : Fin n → Ipv4} (hinjective : Function.Injective free)
    (hfree : ∀ i, p.allocator.Free p.registry.addresses (free i)) (schedule : List (Fin n))
    {results : Fin n → Except ControlFault Registration}
    (hdone : ∀ i, ((Task.interleave schedule (fun _ => register (EngineTunnel.backend e) text)
      p).1 i).result? = some (results i)) :
    ∃ a, Settled peersOf device p text key results
      (Task.interleave schedule (fun _ => register (EngineTunnel.backend e) text) p).2 a := by
  have hcheck : Key.check text = .ok () := by
    rw [Key.check, hkey]
    rfl
  have hstep : ∀ (points : Fin n → RegisterPoint) (q : Plane (EngineTunnel δ × ω)) (i : Fin n),
      (∃ won, Race peersOf device p text key won points q) → (points i).result = none →
      ∃ won, Race peersOf device p text key won
        (Function.update points i (registerStep (EngineTunnel.backend e) text (points i) q).1)
        (registerStep (EngineTunnel.backend e) text (points i) q).2 := by
    rintro points q i ⟨won, hrace⟩ hlive
    exact race_goesOn hrace hobeys hkey hnew hwrites hinjective hfree hlive
  have hstart : ∃ won, Race peersOf device p text key won (fun _ : Fin n => .entering) p :=
    ⟨none, race_start hoperating hunknown⟩
  obtain ⟨points, hfollows, won, hrace⟩ :=
    Task.interleave_follows hstep schedule (fun _ => follows_register hcheck) hstart
  exact hrace.settled hn hnew fun i => (hfollows i).result_eq (hdone i)

/-- Two calls take turns; the second has told the engine an address of its own when it finds the
record of the first. -/
theorem two_registrations_settle :
    let text := "xTIBA5rboUvnH4htodjb6e697QjLERt1NAB4mZqp8Dg="
    let schedule : List (Fin 2) := (List.replicate 10 [0, 1]).flatten
    ∃ (p : Plane (EngineTunnel Unit × KeyMap Engine.PeerEntry)) (key : Key)
        (results : Fin 2 → Except ControlFault Registration) (a : Ipv4),
      openAt (trialHost [none]) trialPath trialPool ({}, ∅) = .ok p ∧ Key.read text = .ok key ∧
      let started := p.afterAll Engine.bare [.call (.start trialSettings)]
      let ended := Task.interleave schedule
        (fun _ => register (EngineTunnel.backend Engine.bare) text) started
      (∀ i, (ended.1 i).result? = some (results i)) ∧ (results 0).isOk = true ∧
        results 1 = .error (.alreadyRegistered text "10.0.0.2/32") ∧
        Settled (fun _ peers => peers) () started text key results ended.2 a := by
  have hwritable : ∀ record : RegisteredPeer,
      (({ path := trialPath } : Registry).commit {}
        ((∅ : KeyMap RegisteredPeer).insert "xTIBA5rboUvnH4htodjb6e697QjLERt1NAB4mZqp8Dg="
          record)).1.isOk = true := by
    intro record
    rfl
  intro text schedule
  let p : Plane (EngineTunnel Unit × KeyMap Engine.PeerEntry) := trial ({}, ∅) []
  have hopen : openAt (trialHost [none]) trialPath trialPool ({}, ∅) = .ok p := openAt_trial _ []
  obtain ⟨key, hkey⟩ : ∃ key, Key.read text = .ok key := by
    have hok : (Key.read text).isOk = true := by decide +kernel
    cases hread : Key.read text with
    | ok key => exact ⟨key, rfl⟩
    | error fault =>
        rw [hread] at hok
        cases hok
  refine ⟨p, key, ?_⟩
  have hrunning : (p.afterAll Engine.bare [.call (.start trialSettings)]).running.isSome = true := by
    decide +kernel
  obtain ⟨device, hoperating⟩ := operating_afterAll hopen [.call (.start trialSettings)] hrunning
  let free : Fin 2 → Ipv4 := fun i => .ofOctets 10 0 0 (2 + i)
  let run := fun started => Task.interleave schedule
    (fun _ => register (EngineTunnel.backend Engine.bare) text) started
  -- what is computed of the control plane that was started, and of the race
  obtain ⟨hpeers, hregistry, hdisk, hisFree, hdone, hfirst, hsecond⟩ :
      let started := p.afterAll Engine.bare [.call (.start trialSettings)]
      started.backend.2 = ∅ ∧ started.registry = { path := trialPath } ∧ started.host.disk = {} ∧
        (∀ i, started.allocator.isFree (free i).text started.registry.addresses = true) ∧
        (∀ i, ((run started).1 i).result?.isSome = true) ∧
        ((run started).1 0).result?.any Except.isOk = true ∧
        ((run started).1 1).result? = some (.error (.alreadyRegistered text "10.0.0.2/32")) := by
    decide +kernel
  dsimp only
  -- the rest of the proof need not look into what was started
  generalize p.afterAll Engine.bare [.call (.start trialSettings)] = started at *
  have hwrites : ∀ record, (started.registry.commit started.host.disk
      (started.registry.peers.insert text record)).1.isOk = true := by
    rw [hregistry, hdisk]
    exact hwritable
  have hfree : ∀ i, started.allocator.Free started.registry.addresses (free i) :=
    fun i => Allocator.isFree_text_iff.mp (hisFree i)
  have hnew : started.registry.peers.get? text = none := by
    rw [hregistry]
    rfl
  have hunknown : started.backend.2.get? key.hex = none := by
    rw [hpeers]
    rfl
  have hinjective : Function.Injective free := by decide
  choose results hresults using fun i => Option.isSome_iff_exists.mp (hdone i)
  obtain ⟨a, hsettled⟩ := racing_registrations_settle (by decide) Engine.bare_obeys hoperating hkey
    hnew hunknown hwrites hinjective hfree schedule hresults
  refine ⟨results, a, hopen, hkey, hresults, ?_, ?_, hsettled⟩
  · rw [hresults 0] at hfirst
    exact hfirst
  · rw [hresults 1] at hsecond
    exact Option.some.inj hsecond

end Plane

end OverlayVpn
