import Mathlib.Data.List.Induction
import OverlayVpn.Proofs.Pool.Allocator

set_option autoImplicit false

/-! # Leases over a history of calls

An allocator serves a list of calls one after another. The addresses that a history of calls and
replies leaves with its callers are those handed out and not given back since (`Held`); they are
the reserved ones (`mem_reserved_iff_held`). The strategy only changes where a search starts, so
that it never shows in a reply (`serve_withStrategy`). -/

namespace OverlayVpn

namespace Allocator

/-! ## Calls and replies -/

/-- A call of an allocator. An allocation comes with the moment that the clock shows. -/
inductive Call where
  | allocate (known : List String) (now : Timestamp)
  | isFree (candidate : String) (known : List String)
  | release (address : Ipv4)
  | resetCounts
  | readCounts

/-- What a call is answered. -/
inductive Reply where
  | allocated (result : Except Pool.Fault Network)
  | free (answer : Bool)
  | released (wasReserved : Bool)
  | reset
  | counts (counts : AllocatorCounts)

/-- Answers one call. -/
def perform (a : Allocator) : Call → Reply × Allocator
  | .allocate known now => (.allocated (a.allocate known now).1, (a.allocate known now).2)
  | .isFree candidate known => (.free (a.isFree candidate known), a)
  | .release address => (.released (a.release address).1, (a.release address).2)
  | .resetCounts => (.reset, a.resetCounts)
  | .readCounts => (.counts a.counts, a)

/-- Answers calls one after another. -/
def serve (a : Allocator) : List Call → List Reply × Allocator
  | [] => ([], a)
  | call :: calls =>
    let (reply, a) := a.perform call
    let (replies, a) := serve a calls
    (reply :: replies, a)

/-- The calls with their replies. -/
def history (a : Allocator) (calls : List Call) : List (Call × Reply) :=
  calls.zip (a.serve calls).1

/-- An address is held after a history: it was handed out, and not given back since. -/
def Held (history : List (Call × Reply)) (address : Ipv4) : Prop :=
  ∃ before after known now,
    history = before ++ (.allocate known now, .allocated (.ok (.host address))) :: after ∧
      ∀ reply, (Call.release address, reply) ∉ after

/-- An address is the lowest that can be had. -/
def LowestFree (a : Allocator) (known : List String) (address : Ipv4) : Prop :=
  a.isFree address.text known = true ∧
    ∀ other : Ipv4, a.isFree other.text known = true → address.toNat ≤ other.toNat

/-! ## Serving -/

theorem serve_append (a : Allocator) (calls more : List Call) :
    a.serve (calls ++ more) =
      ((a.serve calls).1 ++ ((a.serve calls).2.serve more).1, ((a.serve calls).2.serve more).2) := by
  induction calls generalizing a with
  | nil => rfl
  | cons call calls ih =>
      simp only [List.cons_append, serve, ih]

theorem length_serve (a : Allocator) (calls : List Call) :
    (a.serve calls).1.length = calls.length := by
  induction calls generalizing a with
  | nil => rfl
  | cons call calls ih =>
      simp only [serve, List.length_cons, ih]

theorem serve_concat (a : Allocator) (calls : List Call) (call : Call) :
    a.serve (calls ++ [call]) =
      ((a.serve calls).1 ++ [((a.serve calls).2.perform call).1],
        ((a.serve calls).2.perform call).2) := by
  rw [serve_append]
  rfl

theorem history_concat (a : Allocator) (calls : List Call) (call : Call) :
    a.history (calls ++ [call]) =
      a.history calls ++ [(call, ((a.serve calls).2.perform call).1)] := by
  rw [history, serve_concat, List.zip_append (length_serve a calls).symm]
  rfl

theorem sound_perform {a : Allocator} (h : a.Sound) (call : Call) : (a.perform call).2.Sound := by
  cases call with
  | allocate known now => exact sound_allocate h known now
  | isFree candidate known => exact h
  | release address => exact sound_release h address
  | resetCounts =>
      exact ⟨h.nodup_reserved, h.assignable_of_reserved, h.first_le_floor, h.last_lt⟩
  | readCounts => exact h

@[simp] theorem pool_perform (a : Allocator) (call : Call) : (a.perform call).2.pool = a.pool := by
  cases call <;> simp [perform, resetCounts]

theorem sound_serve {a : Allocator} (h : a.Sound) (calls : List Call) : (a.serve calls).2.Sound := by
  induction calls generalizing a with
  | nil => exact h
  | cons call calls ih => exact ih (sound_perform h call)

@[simp] theorem pool_serve (a : Allocator) (calls : List Call) : (a.serve calls).2.pool = a.pool := by
  induction calls generalizing a with
  | nil => rfl
  | cons call calls ih =>
      show ((a.perform call).2.serve calls).2.pool = a.pool
      rw [ih, pool_perform]

/-! ## The strategy does not show -/

/-- The same allocator with another strategy. -/
def withStrategy (a : Allocator) (strategy : Strategy) : Allocator := { a with strategy }

@[simp] theorem pool_withStrategy (a : Allocator) (strategy : Strategy) :
    (a.withStrategy strategy).pool = a.pool := rfl

@[simp] theorem taken_withStrategy (a : Allocator) (strategy : Strategy) (known : List String) :
    (a.withStrategy strategy).taken known = a.taken known := rfl

theorem sound_withStrategy {a : Allocator} (h : a.Sound) (strategy : Strategy) :
    (a.withStrategy strategy).Sound :=
  ⟨h.nodup_reserved, h.assignable_of_reserved, h.first_le_floor, h.last_lt⟩

theorem allocate_withStrategy {a : Allocator} (h : a.Sound) (strategy : Strategy)
    (known : List String) (now : Timestamp) :
    (a.withStrategy strategy).allocate known now =
      ((a.allocate known now).1, (a.allocate known now).2.withStrategy strategy) := by
  rw [allocate_eq h, allocate_eq (sound_withStrategy h strategy), pool_withStrategy,
    taken_withStrategy]
  cases lowestFree a.pool (a.taken known) a.pool.first <;> rfl

/-- One call is answered alike under every strategy, and leaves the same state. -/
theorem perform_withStrategy {a : Allocator} (h : a.Sound) (strategy : Strategy) (call : Call) :
    (a.withStrategy strategy).perform call =
      ((a.perform call).1, (a.perform call).2.withStrategy strategy) := by
  cases call with
  | allocate known now => simp only [perform, allocate_withStrategy h]
  | isFree candidate known => rfl
  | release address =>
      by_cases hassign : a.pool.assignable address = true
      · simp only [perform, release, withStrategy, hassign, if_true]
      · simp only [perform, release, withStrategy, hassign, Bool.false_eq_true, if_false]
  | resetCounts => rfl
  | readCounts => rfl

/-- **All calls are answered alike under every strategy.** -/
theorem serve_withStrategy {a : Allocator} (h : a.Sound) (strategy : Strategy) (calls : List Call) :
    (a.withStrategy strategy).serve calls =
      ((a.serve calls).1, (a.serve calls).2.withStrategy strategy) := by
  induction calls generalizing a with
  | nil => rfl
  | cons call calls ih =>
      simp only [serve, perform_withStrategy h, ih (sound_perform h call)]

/-! ## The reserved addresses are those held -/

/-- What one more call does to the addresses held. -/
theorem held_concat {history : List (Call × Reply)} {call : Call} {reply : Reply} {address : Ipv4} :
    Held (history ++ [(call, reply)]) address ↔
      (Held history address ∧ call ≠ .release address) ∨
        ∃ known now, call = .allocate known now ∧ reply = .allocated (.ok (.host address)) := by
  constructor
  · rintro ⟨before, after, known, now, hsplit, hkept⟩
    -- the call that hands the address out is the last one, or has calls after it
    rcases List.eq_nil_or_concat after with rfl | ⟨after, last, rfl⟩
    · obtain ⟨-, hlast⟩ := List.append_inj' hsplit rfl
      simp only [List.cons.injEq, Prod.mk.injEq, and_true] at hlast
      exact Or.inr ⟨known, now, hlast.1, hlast.2⟩
    · rw [List.concat_eq_append] at hkept hsplit
      rw [← List.cons_append, ← List.append_assoc] at hsplit
      obtain ⟨hhistory, hlast⟩ := List.append_inj' hsplit rfl
      simp only [List.cons.injEq, and_true] at hlast
      refine Or.inl ⟨⟨before, after, known, now, hhistory, fun r hr => ?_⟩, fun hcall => ?_⟩
      · exact hkept r (List.mem_append_left _ hr)
      · exact hkept reply (by rw [← hlast, hcall]; simp)
  · rintro (⟨⟨before, after, known, now, rfl, hkept⟩, hcall⟩ | ⟨known, now, rfl, rfl⟩)
    · refine ⟨before, after ++ [(call, reply)], known, now, by simp, fun r hr => ?_⟩
      rcases List.mem_append.mp hr with hr | hr
      · exact hkept r hr
      · simp only [List.mem_singleton, Prod.mk.injEq] at hr
        exact hcall hr.1.symm
    · exact ⟨history, [], known, now, rfl, fun r hr => absurd hr List.not_mem_nil⟩

/-- How one call changes the reservations. -/
theorem mem_reserved_perform {a : Allocator} (h : a.Sound) (call : Call) (address : Ipv4) :
    address.toNat ∈ (a.perform call).2.reserved ↔
      (address.toNat ∈ a.reserved ∧ call ≠ .release address) ∨
        ∃ known now, call = .allocate known now ∧
          (a.perform call).1 = .allocated (.ok (.host address)) := by
  cases call with
  | allocate known now =>
      simp only [perform, ne_eq, reduceCtorEq, not_false_eq_true, and_true, Call.allocate.injEq,
        Reply.allocated.injEq]
      rcases allocate_cases h known now with ⟨granted, -, -, heq⟩ | ⟨-, heq⟩
      · rw [heq]
        show address.toNat ∈ a.reserved.insert granted.toNat ↔ _
        rw [List.mem_insert_iff]
        constructor
        · rintro (hgranted | hres)
          · exact Or.inr ⟨known, now, ⟨rfl, rfl⟩, by rw [Ipv4.ext_toNat hgranted]⟩
          · exact Or.inl hres
        · rintro (hres | ⟨-, -, -, hreply⟩)
          · exact Or.inr hres
          · have hsame : granted = address := by simpa [Network.host] using hreply
            exact Or.inl (by rw [hsame])
      · rw [heq]
        simp only [reduceCtorEq, and_false, exists_false, or_false]
        rfl
  | isFree candidate known => simp [perform]
  | release released =>
      simp only [perform, mem_reserved_release h, ne_eq, Call.release.injEq, reduceCtorEq, false_and,
        exists_false, or_false]
      refine and_congr_right fun _ => not_congr ⟨fun heq => ?_, fun heq => by rw [heq]⟩
      exact (Ipv4.ext_toNat heq).symm
  | resetCounts => simp [perform, resetCounts]
  | readCounts => simp [perform]

/-- **The reserved addresses are those held.** -/
theorem mem_reserved_iff_held {pool : Pool} (h : pool.last < UInt32.size) (strategy : Strategy)
    (calls : List Call) (address : Ipv4) :
    address.toNat ∈ ((create pool strategy).serve calls).2.reserved ↔
      Held ((create pool strategy).history calls) address := by
  induction calls using List.reverseRecOn with
  | nil =>
      refine ⟨fun hmem => absurd hmem List.not_mem_nil, ?_⟩
      rintro ⟨before, after, known, now, hsplit, -⟩
      simp [history, serve] at hsplit
  | append_singleton calls call ih =>
      have hsound := sound_serve (sound_create h strategy) calls
      rw [serve_concat, mem_reserved_perform hsound, history_concat, held_concat, ih]

/-! ## The lowest free address -/

theorem lowestFree_iff {a : Allocator} {known : List String} {address : Ipv4} :
    a.LowestFree known address ↔
      a.Free known address ∧ ∀ other, a.Free known other → address.toNat ≤ other.toNat := by
  simp only [LowestFree, isFree_text_iff]

/-- **Leases are the same under both strategies, and always the lowest there are.** For every pool
that is created and every list of calls, the tracked and the linear allocator answer alike. At
every allocation, an address can be had exactly when it is assignable, no known entry names it
and it is not held; the allocation hands out the lowest of these, and is refused when there is
none. -/
theorem allocations_lowest_under_both_strategies {cidr gateway : String} {pool : Pool}
    (hpool : Pool.create cidr gateway = .ok pool) (calls : List Call) :
    ((create pool .tracked).serve calls).1 = ((create pool .linear).serve calls).1 ∧
      ∀ (strategy : Strategy) (before after : List Call) (known : List String) (now : Timestamp),
        calls = before ++ .allocate known now :: after →
        let start := create pool strategy
        let a := (start.serve before).2
        (∀ candidate : String, a.isFree candidate known = true ↔
          ∃ address, Ipv4.ofEntry? candidate = some address ∧ pool.assignable address = true ∧
            (∀ entry ∈ known, Ipv4.ofEntry? entry ≠ some address) ∧
            ¬Held (start.history before) address) ∧
        ∃ result, (start.serve calls).1[before.length]? = some (.allocated result) ∧
          (∀ address, result = .ok (.host address) ↔ a.LowestFree known address) ∧
          (result = .error (.exhausted pool.network) ↔
            ∀ address : Ipv4, a.isFree address.text known = false) := by
  have hlast := Pool.last_lt_of_create hpool
  refine ⟨?_, ?_⟩
  · have hsame := serve_withStrategy (sound_create hlast .linear) .tracked calls
    show (((create pool .linear).withStrategy .tracked).serve calls).1 = _
    rw [hsame]
  · rintro strategy before after known now rfl start a
    have hsound : a.Sound := sound_serve (sound_create hlast strategy) before
    have hpool' : a.pool = pool := pool_serve start before
    refine ⟨fun candidate => ?_, (a.allocate known now).1, ?_, fun address => ?_, ?_⟩
    · rw [isFree_iff]
      simp only [Free, hpool', mem_reserved_iff_held hlast strategy before, a, start]
    · have hlen : before.length = (start.serve before).1.length := (length_serve start before).symm
      rw [serve_append, hlen, List.getElem?_append_right (le_refl _), Nat.sub_self]
      rfl
    · rw [allocate_eq_ok_iff hsound, lowestFree_iff]
    · rw [← hpool', allocate_eq_error_iff hsound]
      refine forall_congr' fun address => ?_
      rw [← isFree_text_iff, Bool.not_eq_true]

/-- Six addresses of which the third is the gateway's. The first address is known to be taken, and
then no longer: the tracked allocator goes back for it as the linear one does. -/
theorem allocations_lowest_when_entry_vanishes :
    let pool := Pool.ofNetwork ⟨.ofOctets 10 0 0 0, 29, by decide⟩ (.ofOctets 10 0 0 3)
    let now : Timestamp := ⟨⟨2024, 5, 1⟩, ⟨12, 0, 0, 0⟩, by decide, by decide⟩
    let before := [.allocate ["10.0.0.1/32", "bogus"] now, .allocate [" 10.0.0.1 "] now]
    let calls := before ++ [.allocate ["10.0.0.9"] now]
    let a := ((create pool .tracked).serve before).2
    Pool.create "10.0.0.0/29" "10.0.0.3" = .ok pool ∧
      ((create pool .tracked).serve calls).1 = ((create pool .linear).serve calls).1 ∧
      a.reserved = [167772164, 167772162] ∧
      ∃ result, ((create pool .tracked).serve calls).1[2]? = some (.allocated result) ∧
        ∀ address, result = .ok (.host address) ↔ a.LowestFree ["10.0.0.9"] address := by
  intro pool now before calls a
  have hpool : Pool.create "10.0.0.0/29" "10.0.0.3" = .ok pool := by rfl
  have hlowest := allocations_lowest_under_both_strategies hpool calls
  obtain ⟨-, result, hreply, hok, -⟩ := hlowest.2 .tracked before [] ["10.0.0.9"] now rfl
  exact ⟨hpool, hlowest.1, by decide +kernel, result, hreply, hok⟩

end Allocator

end OverlayVpn
