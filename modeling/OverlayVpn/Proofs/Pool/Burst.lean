import Mathlib.Data.List.Sort
import OverlayVpn.Proofs.Pool.Lease

set_option autoImplicit false

/-! # Exclusive leases, and allocations in a row

`available` lists the free addresses of an allocator in ascending order. A grant takes the first
of them away and a refusal leaves them alone, so that a row of allocations with the same known
entries hands them out in this order until they run out (`replies_burst`), and counts exactly that
(`allocations_burst`, `failures_burst`). Over a whole history, an address that is handed out was
not held (`exists_of_history_eq`), and the held addresses are no more than the pool can assign
(`card_le_capacity`). -/

namespace OverlayVpn

namespace Allocator

variable {a : Allocator} {known : List String}

/-! ## The free addresses in order -/

/-- The free address numbers of the range, in ascending order. -/
def spare (a : Allocator) (known : List String) : List Nat :=
  (List.range' a.pool.first (a.pool.last + 1 - a.pool.first)).filter fun n =>
    a.pool.assignableNumber n && ! (a.taken known).contains n

/-- The free addresses, in ascending order. -/
def available (a : Allocator) (known : List String) : List Ipv4 := (a.spare known).map .ofNat

theorem mem_spare {n : Nat} :
    n ∈ a.spare known ↔ a.pool.assignableNumber n = true ∧ n ∉ a.taken known := by
  simp only [spare, List.mem_filter, List.mem_range'_1, Bool.and_eq_true, Bool.not_eq_true',
    List.contains_eq_mem, decide_eq_false_iff_not, and_iff_right_iff_imp]
  rintro ⟨hassign, -⟩
  have hrange := Pool.assignableNumber_iff.mp hassign
  omega

theorem pairwise_spare (a : Allocator) (known : List String) :
    (a.spare known).Pairwise (· < ·) :=
  (List.pairwise_lt_range' 1 (by decide)).filter _

theorem toNat_of_mem_spare (h : a.Sound) {n : Nat} (hn : n ∈ a.spare known) :
    (Ipv4.ofNat n).toNat = n :=
  toNat_ofNat_of_assignable h (mem_spare.mp hn).1

/-- **The available addresses are the free ones.** -/
theorem mem_available (h : a.Sound) {address : Ipv4} :
    address ∈ a.available known ↔ a.Free known address := by
  rw [available, List.mem_map, free_iff, ← mem_spare]
  constructor
  · rintro ⟨n, hn, rfl⟩
    rwa [toNat_of_mem_spare h hn]
  · intro hmem
    exact ⟨address.toNat, hmem, Ipv4.ofNat_toNat address⟩

theorem pairwise_available (h : a.Sound) (known : List String) :
    (a.available known).Pairwise (·.toNat < ·.toNat) := by
  refine List.pairwise_map.mpr ((pairwise_spare a known).imp_of_mem ?_)
  intro m n hm hn hlt
  rwa [toNat_of_mem_spare h hm, toNat_of_mem_spare h hn]

/-- A grant takes a number into use. -/
theorem mem_taken_grant {n m : Nat} (now : Timestamp) :
    m ∈ (a.grant n now).taken known ↔ m = n ∨ m ∈ a.taken known := by
  rw [mem_taken, mem_taken]
  show m ∈ a.reserved.insert n ∨ _ ↔ _
  rw [List.mem_insert_iff, or_assoc]
  rfl

/-- What is left after the first available address was granted. -/
theorem available_grant (h : a.Sound) {address : Ipv4} {rest : List Ipv4}
    (hcons : a.available known = address :: rest) (now : Timestamp) :
    (a.grant address.toNat now).available known = rest := by
  obtain ⟨n, numbers, hspare, rfl, rfl⟩ := List.map_eq_cons_iff.mp hcons
  rw [toNat_of_mem_spare h (hspare ▸ List.mem_cons_self)]
  have hsorted := pairwise_spare a known
  rw [hspare, List.pairwise_cons] at hsorted
  refine congrArg (List.map Ipv4.ofNat) ?_
  -- both lists ascend, so that they are the same if they have the same members
  refine (pairwise_spare (a.grant n now) known).eq_of_mem_iff hsorted.2 fun m => ?_
  have hm : m ∈ a.spare known ↔ m = n ∨ m ∈ numbers := by rw [hspare, List.mem_cons]
  rw [mem_spare] at hm
  rw [mem_spare, mem_taken_grant, not_or]
  constructor
  · rintro ⟨hassign, hne, hfree⟩
    exact (hm.mp ⟨hassign, hfree⟩).resolve_left hne
  · intro hmem
    obtain ⟨hassign, hfree⟩ := hm.mpr (Or.inr hmem)
    exact ⟨hassign, (hsorted.1 m hmem).ne', hfree⟩

/-! ## Allocations in a row -/

theorem allocate_of_available_nil (h : a.Sound) (hnil : a.available known = []) (now : Timestamp) :
    a.allocate known now = (.error (.exhausted a.pool.network), a.refuse) := by
  rcases allocate_cases h known now with ⟨address, hfree, -, -⟩ | ⟨-, hrefused⟩
  · rw [← mem_available h, hnil] at hfree
    exact absurd hfree List.not_mem_nil
  · exact hrefused

theorem allocate_of_available_cons (h : a.Sound) {address : Ipv4} {rest : List Ipv4}
    (hcons : a.available known = address :: rest) (now : Timestamp) :
    a.allocate known now = (.ok (.host address), a.grant address.toNat now) := by
  have hfirst : a.Free known address := (mem_available h).mp (hcons ▸ List.mem_cons_self)
  rcases allocate_cases h known now with ⟨granted, hfree, hlowest, heq⟩ | ⟨hnone, -⟩
  · have hsorted := pairwise_available h known
    rw [hcons, List.pairwise_cons] at hsorted
    have hmem : granted ∈ address :: rest := hcons ▸ (mem_available h).mpr hfree
    rcases List.mem_cons.mp hmem with rfl | hrest
    · exact heq
    · have hle := hlowest address hfirst
      have hlt := hsorted.1 granted hrest
      omega
  · exact absurd hfirst (hnone address)

theorem sound_of_available_cons (h : a.Sound) {address : Ipv4} {rest : List Ipv4}
    (hcons : a.available known = address :: rest) (now : Timestamp) :
    (a.grant address.toNat now).Sound :=
  sound_grant h ((mem_available h).mp (hcons ▸ List.mem_cons_self)).1 now

/-- The calls of a burst: one allocation at each of the moments, with the same known entries. -/
def burst (known : List String) (moments : List Timestamp) : List Call :=
  moments.map (.allocate known)

/-- **A burst hands out the available addresses in order**, and is refused from there on. -/
theorem replies_burst (h : a.Sound) (known : List String) (moments : List Timestamp) :
    (a.serve (burst known moments)).1 =
      ((a.available known).take moments.length).map (fun address => .allocated (.ok (.host address))) ++
        List.replicate (moments.length - (a.available known).length)
          (.allocated (.error (.exhausted a.pool.network))) := by
  induction moments generalizing a with
  | nil => simp [burst, serve]
  | cons now moments ih =>
      show (.allocated (a.allocate known now).1) ::
        ((a.allocate known now).2.serve (burst known moments)).1 = _
      cases havailable : a.available known with
      | nil =>
          have hrest : a.refuse.available known = [] := havailable
          rw [allocate_of_available_nil h havailable, ih (sound_refuse h), hrest]
          simp [refuse, List.replicate_succ]
      | cons address rest =>
          rw [allocate_of_available_cons h havailable,
            ih (sound_of_available_cons h havailable now), available_grant h havailable]
          simp [grant]

theorem allocations_burst (h : a.Sound) (known : List String) (moments : List Timestamp) :
    (a.serve (burst known moments)).2.counts.allocations =
      a.counts.allocations + .ofNat (min moments.length (a.available known).length) := by
  induction moments generalizing a with
  | nil => simp [burst, serve]
  | cons now moments ih =>
      show ((a.allocate known now).2.serve (burst known moments)).2.counts.allocations = _
      cases havailable : a.available known with
      | nil =>
          have hrest : a.refuse.available known = [] := havailable
          rw [allocate_of_available_nil h havailable, ih (sound_refuse h), hrest]
          simp [refuse]
      | cons address rest =>
          rw [allocate_of_available_cons h havailable,
            ih (sound_of_available_cons h havailable now), available_grant h havailable,
            List.length_cons, List.length_cons, Nat.succ_min_succ, Nat.succ_eq_add_one,
            UInt64.ofNat_add]
          show a.counts.allocations + 1 + _ = _
          rw [UInt64.add_assoc, UInt64.add_comm 1]
          rfl

theorem failures_burst (h : a.Sound) (known : List String) (moments : List Timestamp) :
    (a.serve (burst known moments)).2.counts.failures =
      a.counts.failures + .ofNat (moments.length - (a.available known).length) := by
  induction moments generalizing a with
  | nil => simp [burst, serve]
  | cons now moments ih =>
      show ((a.allocate known now).2.serve (burst known moments)).2.counts.failures = _
      cases havailable : a.available known with
      | nil =>
          have hrest : a.refuse.available known = [] := havailable
          rw [allocate_of_available_nil h havailable, ih (sound_refuse h), hrest,
            List.length_nil, Nat.sub_zero, Nat.sub_zero, List.length_cons, UInt64.ofNat_add]
          show a.counts.failures + 1 + _ = _
          rw [UInt64.add_assoc, UInt64.add_comm 1]
          rfl
      | cons address rest =>
          rw [allocate_of_available_cons h havailable,
            ih (sound_of_available_cons h havailable now), available_grant h havailable,
            List.length_cons, List.length_cons, Nat.succ_sub_succ]
          rfl

/-! ## Over a history -/

/-- A history that ends in one call more was served by the same allocator up to there. -/
theorem history_eq_append {calls : List Call} {before : List (Call × Reply)} {call : Call}
    {reply : Reply} {after : List (Call × Reply)}
    (h : a.history calls = before ++ (call, reply) :: after) :
    ∃ earlier, a.history earlier = before ∧ ((a.serve earlier).2.perform call).1 = reply := by
  induction calls using List.reverseRecOn generalizing after with
  | nil => simp [history, serve] at h
  | append_singleton calls last ih =>
      rw [history_concat] at h
      rcases List.eq_nil_or_concat after with rfl | ⟨after, final, rfl⟩
      · obtain ⟨hbefore, hlast⟩ := List.append_inj' h rfl
        simp only [List.cons.injEq, Prod.mk.injEq, and_true] at hlast
        obtain ⟨rfl, hreply⟩ := hlast
        exact ⟨calls, hbefore, hreply⟩
      · rw [List.concat_eq_append, ← List.cons_append, ← List.append_assoc] at h
        exact ih (List.append_inj' h rfl).1

/-- **What is handed out was free**: a lease in a history is a single address, which was free when
the history had come that far. -/
theorem exists_of_history_eq (h : a.Sound) {calls : List Call} {now : Timestamp} {lease : Network}
    {before after : List (Call × Reply)}
    (hhistory : a.history calls = before ++ (.allocate known now, .allocated (.ok lease)) :: after) :
    ∃ earlier address, a.history earlier = before ∧ lease = .host address ∧
      (a.serve earlier).2.Free known address := by
  obtain ⟨earlier, hbefore, hreply⟩ := history_eq_append hhistory
  simp only [perform, Reply.allocated.injEq] at hreply
  rcases allocate_cases (sound_serve h earlier) known now with ⟨address, hfree, -, heq⟩ | ⟨-, heq⟩
  · rw [heq] at hreply
    exact ⟨earlier, address, hbefore, (Except.ok.inj hreply).symm, hfree⟩
  · rw [heq] at hreply
    cases hreply

/-- There are no more reserved addresses than the pool can assign. -/
theorem card_le_capacity (h : a.Sound) {addresses : Finset Ipv4}
    (hreserved : ∀ address ∈ addresses, address.toNat ∈ a.reserved) :
    addresses.card ≤ a.pool.capacity := by
  rw [Pool.capacity, Pool.assignableBelow_eq_card]
  refine Finset.card_le_card_of_injOn Ipv4.toNat ?_ fun x _ y _ hsame => Ipv4.ext_toNat hsame
  intro address hmem
  have hassign := h.assignable_of_reserved _ (hreserved address hmem)
  obtain ⟨hfirst, hlast, hgateway⟩ := Pool.assignableNumber_iff.mp hassign
  rw [Finset.mem_coe, Finset.mem_erase, Finset.mem_Ico]
  omega

/-- **Leases are exclusive, and a burst of allocations is exact.** For every pool that is created
and every list of calls, an address is handed out a second time only after a release of it, and
the addresses held are assignable and no more than the pool's capacity. From every state so
reached, a row of allocations with the same known entries hands out the available addresses in
ascending order, is refused from there on, and counts just these grants and refusals. -/
theorem leases_exclusive_and_bursts_exact {cidr gateway : String} {pool : Pool}
    (hpool : Pool.create cidr gateway = .ok pool) (strategy : Strategy) (calls : List Call) :
    let start := create pool strategy
    let history := start.history calls
    (∀ before between after known known' now now' lease lease',
      history = before ++ (.allocate known now, .allocated (.ok lease)) :: between ++
        (.allocate known' now', .allocated (.ok lease')) :: after →
      lease.address = lease'.address →
      ∃ reply, (Call.release lease.address, reply) ∈ between) ∧
    (∀ address, Held history address → pool.assignable address = true) ∧
    (∀ addresses : Finset Ipv4, (∀ address ∈ addresses, Held history address) →
      addresses.card ≤ pool.capacity) ∧
    ∀ (known : List String) (moments : List Timestamp),
      let a := (start.serve calls).2
      let available := a.available known
      let granted := min moments.length available.length
      let refused := moments.length - granted
      let replies := (a.serve (burst known moments)).1
      let counts := (a.serve (burst known moments)).2.counts
      (∀ candidate, a.isFree candidate known = true ↔
        ∃ address ∈ available, Ipv4.ofEntry? candidate = some address) ∧
      available.Pairwise (·.toNat < ·.toNat) ∧
      replies = (available.take granted).map (fun address => .allocated (.ok (.host address))) ++
        List.replicate refused (.allocated (.error (.exhausted pool.network))) ∧
      counts.allocations = a.counts.allocations + .ofNat granted ∧
      counts.failures = a.counts.failures + .ofNat refused := by
  have hlast := Pool.last_lt_of_create hpool
  have hstart : (create pool strategy).Sound := sound_create hlast strategy
  have hsound : ((create pool strategy).serve calls).2.Sound := sound_serve hstart calls
  have hpool' : ((create pool strategy).serve calls).2.pool = pool := pool_serve _ calls
  refine ⟨?_, ?_, ?_, ?_⟩
  · intro before between after known known' now now' lease lease' hhistory hsame
    obtain ⟨-, address, -, rfl, -⟩ :=
      exists_of_history_eq hstart (hhistory.trans (List.append_assoc _ _ _))
    obtain ⟨earlier, address', hearlier, rfl, hfree⟩ := exists_of_history_eq hstart hhistory
    obtain rfl : address = address' := hsame
    by_contra hnone
    have hheld : Held ((create pool strategy).history earlier) address :=
      ⟨before, between, known, now, hearlier, fun reply hmem => hnone ⟨reply, hmem⟩⟩
    exact hfree.2.2 ((mem_reserved_iff_held hlast strategy earlier address).mpr hheld)
  · intro address hheld
    have hreserved := (mem_reserved_iff_held hlast strategy calls address).mpr hheld
    have hassign := hsound.assignable_of_reserved _ hreserved
    rwa [hpool'] at hassign
  · intro addresses hheld
    have hcard := card_le_capacity hsound fun address hmem =>
      (mem_reserved_iff_held hlast strategy calls address).mpr (hheld address hmem)
    rwa [hpool'] at hcard
  · intro known moments a available granted refused replies counts
    refine ⟨fun candidate => ?_, pairwise_available hsound known, ?_,
      allocations_burst hsound known moments, ?_⟩
    · rw [isFree_iff]
      refine exists_congr fun address => ?_
      rw [mem_available hsound, and_comm]
    · have htake : available.take granted = available.take moments.length :=
        List.take_eq_take_min.symm
      have hrefused : refused = moments.length - available.length := by omega
      rw [htake, hrefused, ← hpool']
      exact replies_burst hsound known moments
    · have hrefused : refused = moments.length - available.length := by omega
      rw [hrefused]
      exact failures_burst hsound known moments

/-- Six addresses of which the third is the gateway's. The first is handed out, given back and
handed out again; after that, with the fifth known to be taken, three allocations in a row get the
second and the sixth, and are refused. -/
theorem leases_exclusive_and_bursts_exact_in_six :
    let pool := Pool.ofNetwork ⟨.ofOctets 10 0 0 0, 29, by decide⟩ (.ofOctets 10 0 0 3)
    let now : Timestamp := ⟨⟨2024, 5, 1⟩, ⟨12, 0, 0, 0⟩, by decide, by decide⟩
    let first : Ipv4 := .ofOctets 10 0 0 1
    let calls := [.allocate [] now, .allocate [" 10.0.0.2 "] now, .release first, .allocate [] now]
    let a := ((create pool .tracked).serve calls).2
    let between : List (Call × Reply) :=
      [(.allocate [" 10.0.0.2 "] now, .allocated (.ok (.host (.ofOctets 10 0 0 4)))),
        (.release first, .released true)]
    Pool.create "10.0.0.0/29" "10.0.0.3" = .ok pool ∧
      (∃ reply, (Call.release first, reply) ∈ between) ∧
      a.available ["10.0.0.5/32"] = [.ofOctets 10 0 0 2, .ofOctets 10 0 0 6] ∧
      (a.serve (burst ["10.0.0.5/32"] [now, now, now])).1 =
        [.allocated (.ok (.host (.ofOctets 10 0 0 2))), .allocated (.ok (.host (.ofOctets 10 0 0 6))),
          .allocated (.error (.exhausted pool.network))] := by
  intro pool now first calls a between
  have hpool : Pool.create "10.0.0.0/29" "10.0.0.3" = .ok pool := by rfl
  obtain ⟨hexclusive, -, -, hburst⟩ := leases_exclusive_and_bursts_exact hpool .tracked calls
  obtain ⟨-, -, hreplies, -, -⟩ := hburst ["10.0.0.5/32"] [now, now, now]
  have havailable : a.available ["10.0.0.5/32"] = [.ofOctets 10 0 0 2, .ofOctets 10 0 0 6] := by
    decide +kernel
  have hhistory : (create pool .tracked).history calls =
      [] ++ (.allocate [] now, .allocated (.ok (.host first))) :: between ++
        (.allocate [] now, .allocated (.ok (.host first))) :: [] := by
    have hserved : ((create pool .tracked).allocate [] now).1 = .ok (.host first) ∧
        (((create pool .tracked).allocate [] now).2.allocate [" 10.0.0.2 "] now).1 =
          .ok (.host (.ofOctets 10 0 0 4)) ∧
        ((((create pool .tracked).allocate [] now).2.allocate [" 10.0.0.2 "] now).2.release
          first).1 = true ∧
        (((((create pool .tracked).allocate [] now).2.allocate [" 10.0.0.2 "] now).2.release
          first).2.allocate [] now).1 = .ok (.host first) := by decide +kernel
    simp only [history, calls, serve, perform, hserved]
    rfl
  rw [havailable] at hreplies
  exact ⟨hpool, hexclusive [] between [] [] [] now now _ _ hhistory rfl, havailable, hreplies⟩

end Allocator

end OverlayVpn
