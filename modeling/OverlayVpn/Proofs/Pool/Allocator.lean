import OverlayVpn.Pool.Allocator
import OverlayVpn.Proofs.Net.Ipv4
import OverlayVpn.Proofs.Pool.Basic

set_option autoImplicit false

/-! # What an allocator hands out

`Allocator.Sound` is what every allocator keeps: its reservations are assignable, each made once,
and its floor does not lie below its range. For a sound allocator the search gives the same
number wherever it starts (`lowestFree_searchStart`), because a floor that passes the count has
nothing free below it (`mem_of_floorHolds`). An allocation therefore gives the lowest address
that is free (`allocate_eq_ok_iff`), or fails because none is (`allocate_eq_error_iff`). -/

namespace OverlayVpn

namespace Allocator

/-- What every allocator keeps. -/
structure Sound (a : Allocator) : Prop where
  nodup_reserved : a.reserved.Nodup
  assignable_of_reserved : ∀ n ∈ a.reserved, a.pool.assignableNumber n = true
  first_le_floor : a.pool.first ≤ a.floor
  last_lt : a.pool.last < UInt32.size

/-- An address is free: it may be handed out, no known entry names it and it is not reserved. -/
def Free (a : Allocator) (known : List String) (address : Ipv4) : Prop :=
  a.pool.assignable address = true ∧ (∀ entry ∈ known, Ipv4.ofEntry? entry ≠ some address) ∧
    address.toNat ∉ a.reserved

/-! ## The numbers in use -/

/-- Folding the assignable numbers of a list into a list of numbers. -/
theorem mem_foldl_insert (pool : Pool) (numbers used : List Nat) (n : Nat) :
    n ∈ numbers.foldl (fun used n => if pool.assignableNumber n then used.insert n else used) used ↔
      n ∈ used ∨ n ∈ numbers ∧ pool.assignableNumber n = true := by
  induction numbers generalizing used with
  | nil => simp
  | cons m numbers ih =>
      rw [List.foldl_cons, ih]
      by_cases hm : pool.assignableNumber m = true
      · rw [if_pos hm, List.mem_insert_iff, List.mem_cons]
        constructor
        · rintro ((rfl | hn) | hn)
          · exact Or.inr ⟨Or.inl rfl, hm⟩
          · exact Or.inl hn
          · exact Or.inr ⟨Or.inr hn.1, hn.2⟩
        · rintro (hn | ⟨rfl | hn, hassign⟩)
          · exact Or.inl (Or.inr hn)
          · exact Or.inl (Or.inl rfl)
          · exact Or.inr ⟨hn, hassign⟩
      · rw [if_neg hm, List.mem_cons]
        constructor
        · rintro (hn | ⟨hn, hassign⟩)
          · exact Or.inl hn
          · exact Or.inr ⟨Or.inr hn, hassign⟩
        · rintro (hn | ⟨rfl | hn, hassign⟩)
          · exact Or.inl hn
          · exact absurd hassign hm
          · exact Or.inr ⟨hn, hassign⟩

theorem nodup_foldl_insert (pool : Pool) (numbers : List Nat) {used : List Nat} (h : used.Nodup) :
    (numbers.foldl (fun used n => if pool.assignableNumber n then used.insert n else used)
      used).Nodup := by
  induction numbers generalizing used with
  | nil => exact h
  | cons m numbers ih =>
      rw [List.foldl_cons]
      split
      · exact ih h.insert
      · exact ih h

/-- A number is in use when it is reserved, or when a known entry names an assignable address that
has it. -/
theorem mem_taken {a : Allocator} {known : List String} {n : Nat} :
    n ∈ a.taken known ↔ n ∈ a.reserved ∨
      ∃ entry ∈ known, ∃ address, Ipv4.ofEntry? entry = some address ∧ address.toNat = n ∧
        a.pool.assignableNumber n = true := by
  rw [taken, mem_foldl_insert]
  refine or_congr_right ?_
  simp only [List.mem_map, List.mem_filterMap]
  constructor
  · rintro ⟨⟨address, ⟨entry, hentry, hnames⟩, hn⟩, hassign⟩
    exact ⟨entry, hentry, address, hnames, hn, hassign⟩
  · rintro ⟨entry, hentry, address, hnames, hn, hassign⟩
    exact ⟨⟨address, ⟨entry, hentry, hnames⟩, hn⟩, hassign⟩

theorem nodup_taken {a : Allocator} (h : a.Sound) (known : List String) : (a.taken known).Nodup :=
  nodup_foldl_insert _ _ h.nodup_reserved

theorem assignable_of_mem_taken {a : Allocator} (h : a.Sound) {known : List String} {n : Nat}
    (hn : n ∈ a.taken known) : a.pool.assignableNumber n = true := by
  rcases mem_taken.mp hn with hres | ⟨_, _, _, _, _, hassign⟩
  · exact h.assignable_of_reserved n hres
  · exact hassign

/-- An address is free when it is assignable and its number is not in use. -/
theorem free_iff {a : Allocator} {known : List String} {address : Ipv4} :
    a.Free known address ↔
      a.pool.assignableNumber address.toNat = true ∧ address.toNat ∉ a.taken known := by
  constructor
  · rintro ⟨hassign, hknown, hres⟩
    refine ⟨hassign, fun htaken => ?_⟩
    rcases mem_taken.mp htaken with h | ⟨entry, hentry, other, hnames, hn, -⟩
    · exact hres h
    · rw [Ipv4.ext_toNat hn] at hnames
      exact hknown entry hentry hnames
  · rintro ⟨hassign, htaken⟩
    refine ⟨hassign, fun entry hentry hnames => htaken ?_, fun hres => htaken ?_⟩
    · exact mem_taken.mpr (Or.inr ⟨entry, hentry, address, hnames, rfl, hassign⟩)
    · exact mem_taken.mpr (Or.inl hres)

/-- **An entry can be had exactly when it names a free address.** -/
theorem isFree_iff {a : Allocator} {candidate : String} {known : List String} :
    a.isFree candidate known = true ↔
      ∃ address, Ipv4.ofEntry? candidate = some address ∧ a.Free known address := by
  unfold isFree
  cases h : Ipv4.ofEntry? candidate with
  | none => simp
  | some address => simp [free_iff, Pool.assignable]

theorem isFree_text_iff {a : Allocator} {known : List String} {address : Ipv4} :
    a.isFree address.text known = true ↔ a.Free known address := by
  rw [isFree_iff, Ipv4.ofEntry?_text]
  simp

/-! ## The search -/

theorem firstFrom_eq_some_iff {p : Nat → Bool} {start count n : Nat} :
    firstFrom p start count = some n ↔
      start ≤ n ∧ n < start + count ∧ p n = true ∧ ∀ m, start ≤ m → m < n → p m = false := by
  induction count generalizing start with
  | zero =>
      simp only [firstFrom, reduceCtorEq, false_iff]
      omega
  | succ count ih =>
      unfold firstFrom
      by_cases hp : p start = true
      · rw [if_pos hp, Option.some.injEq]
        constructor
        · rintro rfl
          exact ⟨le_refl _, by omega, hp, fun m h₁ h₂ => absurd h₁ (by omega)⟩
        · rintro ⟨hle, -, -, hbelow⟩
          by_contra hne
          have := hbelow start (le_refl _) (by omega)
          simp [hp] at this
      · rw [if_neg hp, ih]
        constructor
        · rintro ⟨hle, hlt, hpn, hbelow⟩
          refine ⟨by omega, by omega, hpn, fun m h₁ h₂ => ?_⟩
          by_cases hm : m = start
          · rw [hm]; simpa using hp
          · exact hbelow m (by omega) h₂
        · rintro ⟨hle, hlt, hpn, hbelow⟩
          have hne : n ≠ start := fun h => hp (h ▸ hpn)
          exact ⟨by omega, by omega, hpn, fun m h₁ h₂ => hbelow m (by omega) h₂⟩

theorem firstFrom_eq_none_iff {p : Nat → Bool} {start count : Nat} :
    firstFrom p start count = none ↔ ∀ m, start ≤ m → m < start + count → p m = false := by
  induction count generalizing start with
  | zero =>
      simp only [firstFrom, true_iff]
      omega
  | succ count ih =>
      unfold firstFrom
      by_cases hp : p start = true
      · rw [if_pos hp]
        simp only [reduceCtorEq, false_iff, not_forall]
        exact ⟨start, le_refl _, by omega, by simp [hp]⟩
      · rw [if_neg hp, ih]
        constructor
        · intro h m h₁ h₂
          by_cases hm : m = start
          · rw [hm]; simpa using hp
          · exact h m (by omega) (by omega)
        · intro h m h₁ h₂
          exact h m (by omega) (by omega)

theorem firstFrom_congr {p q : Nat → Bool} {start count : Nat}
    (h : ∀ n, start ≤ n → n < start + count → p n = q n) :
    firstFrom p start count = firstFrom q start count := by
  induction count generalizing start with
  | zero => rfl
  | succ count ih =>
      have hrest : firstFrom p (start + 1) count = firstFrom q (start + 1) count :=
        ih fun n hle hlt => h n (by omega) (by omega)
      rw [firstFrom, firstFrom, h start (le_refl _) (by omega), hrest]

/-- A search that starts at the range or above it finds the lowest free number from there on. -/
theorem lowestFree_eq_some_iff {pool : Pool} {used : List Nat} {start n : Nat}
    (hstart : pool.first ≤ start) :
    lowestFree pool used start = some n ↔
      start ≤ n ∧ pool.assignableNumber n = true ∧ n ∉ used ∧
        ∀ m, start ≤ m → m < n → pool.assignableNumber m = true → m ∈ used := by
  rw [lowestFree, firstFrom_eq_some_iff]
  simp only [Pool.assignableNumber_iff, Bool.and_eq_true, decide_eq_true_eq, Bool.not_eq_true',
    Bool.and_eq_false_iff, decide_eq_false_iff_not, not_not, List.contains_eq_mem,
    Bool.not_eq_false', ne_eq]
  constructor
  · rintro ⟨hle, hlt, ⟨hgate, hfree⟩, hbelow⟩
    refine ⟨hle, ⟨by omega, by omega, hgate⟩, hfree, fun m h₁ h₂ h₃ => ?_⟩
    rcases hbelow m h₁ h₂ with h | h
    · exact absurd h h₃.2.2
    · exact h
  · rintro ⟨hle, ⟨-, hlast, hgate⟩, hfree, hbelow⟩
    refine ⟨hle, by omega, ⟨hgate, hfree⟩, fun m h₁ h₂ => ?_⟩
    by_cases hm : m = pool.gateway.toNat
    · exact Or.inl hm
    · exact Or.inr (hbelow m h₁ h₂ ⟨by omega, by omega, hm⟩)

theorem lowestFree_eq_none_iff {pool : Pool} {used : List Nat} {start : Nat}
    (hstart : pool.first ≤ start) :
    lowestFree pool used start = none ↔
      ∀ m, start ≤ m → pool.assignableNumber m = true → m ∈ used := by
  rw [lowestFree, firstFrom_eq_none_iff]
  simp only [Pool.assignableNumber_iff, Bool.and_eq_false_iff, decide_eq_false_iff_not, not_not,
    List.contains_eq_mem, Bool.not_eq_false', decide_eq_true_eq, ne_eq]
  constructor
  · intro h m h₁ h₂
    rcases h m h₁ (by omega) with h | h
    · exact absurd h h₂.2.2
    · exact h
  · intro h m h₁ h₂
    by_cases hm : m = pool.gateway.toNat
    · exact Or.inl hm
    · exact Or.inr (h m h₁ ⟨by omega, by omega, hm⟩)

/-! ## The floor -/

/-- **A floor that passes the count has nothing free below it.** The numbers in use below the
floor are among the assignable ones there; when they are as many, they are the same. -/
theorem mem_of_floorHolds {pool : Pool} {floor : Nat} {used : List Nat} (hnodup : used.Nodup)
    (hassign : ∀ n ∈ used, pool.assignableNumber n = true) (h : floorHolds pool floor used = true)
    {n : Nat} (hn : pool.assignableNumber n = true) (hlt : n < floor) : n ∈ used := by
  have hn' := Pool.assignableNumber_iff.mp hn
  simp only [floorHolds, Bool.or_eq_true, decide_eq_true_eq, beq_iff_eq] at h
  rcases h with hfloor | hcount
  · omega
  · set below := used.filter fun n => decide (pool.first ≤ n) && decide (n < floor) with hbelow
    have hcard : below.toFinset.card = below.length := List.toFinset_card_of_nodup (hnodup.filter _)
    have hsub : below.toFinset ⊆ (Finset.Ico pool.first floor).erase pool.gateway.toNat := by
      intro m hm
      simp only [hbelow, List.mem_toFinset, List.mem_filter, Bool.and_eq_true,
        decide_eq_true_eq] at hm
      have hgate := (Pool.assignableNumber_iff.mp (hassign m hm.1)).2.2
      exact Finset.mem_erase.mpr ⟨hgate, Finset.mem_Ico.mpr hm.2⟩
    -- as many numbers are in use below the floor as there are assignable ones
    have heq := Finset.eq_of_subset_of_card_le hsub
      (by rw [← Pool.assignableBelow_eq_card, hcard, hcount])
    have hmem : n ∈ below.toFinset := by
      rw [heq]
      exact Finset.mem_erase.mpr ⟨hn'.2.2, Finset.mem_Ico.mpr ⟨hn'.1, hlt⟩⟩
    simp only [hbelow, List.mem_toFinset, List.mem_filter] at hmem
    exact hmem.1

theorem first_le_searchStart {a : Allocator} (h : a.Sound) (used : List Nat) :
    a.pool.first ≤ a.searchStart used := by
  have hfloor := h.first_le_floor
  unfold searchStart
  split
  · exact le_refl _
  · split
    · exact hfloor
    · exact le_refl _

/-- Nothing is free below the place where the search starts. -/
theorem mem_taken_of_lt_searchStart {a : Allocator} (h : a.Sound) {known : List String} {n : Nat}
    (hn : a.pool.assignableNumber n = true) (hlt : n < a.searchStart (a.taken known)) :
    n ∈ a.taken known := by
  have hfirst := (Pool.assignableNumber_iff.mp hn).1
  unfold searchStart at hlt
  split at hlt
  · omega
  · split at hlt
    · rename_i hfloor
      exact mem_of_floorHolds (nodup_taken h known) (fun _ => assignable_of_mem_taken h) hfloor hn hlt
    · omega

/-- **Where the search starts does not matter.** -/
theorem lowestFree_searchStart {a : Allocator} (h : a.Sound) (known : List String) :
    lowestFree a.pool (a.taken known) (a.searchStart (a.taken known)) =
      lowestFree a.pool (a.taken known) a.pool.first := by
  have hstart := first_le_searchStart h (a.taken known)
  cases hfound : lowestFree a.pool (a.taken known) a.pool.first with
  | none =>
      rw [lowestFree_eq_none_iff hstart]
      rw [lowestFree_eq_none_iff (le_refl _)] at hfound
      exact fun m hm hassign => hfound m (by omega) hassign
  | some n =>
      rw [lowestFree_eq_some_iff hstart]
      obtain ⟨-, hassign, hfree, hbelow⟩ := (lowestFree_eq_some_iff (le_refl _)).mp hfound
      refine ⟨?_, hassign, hfree, fun m h₁ h₂ h₃ => hbelow m (by omega) h₂ h₃⟩
      -- what was found is free, so that it cannot lie below the start
      by_contra hlt
      exact hfree (mem_taken_of_lt_searchStart h hassign (by omega))

/-! ## Allocations -/

/-- The allocator after `n` was handed out at a moment. -/
def grant (a : Allocator) (n : Nat) (now : Timestamp) : Allocator :=
  { a with
    reserved := a.reserved.insert n
    floor := min (n + 1) (UInt32.size - 1)
    counts := { a.counts with
      allocations := a.counts.allocations + 1, lastAllocation := some now } }

/-- The allocator after a failure. -/
def refuse (a : Allocator) : Allocator :=
  { a with counts := { a.counts with failures := a.counts.failures + 1 } }

/-- **What an allocation does**: it grants the lowest number of the range that is not in use. -/
theorem allocate_eq {a : Allocator} (h : a.Sound) (known : List String) (now : Timestamp) :
    a.allocate known now =
      match lowestFree a.pool (a.taken known) a.pool.first with
      | some n => (.ok (.host (.ofNat n)), a.grant n now)
      | none => (.error (.exhausted a.pool.network), a.refuse) := by
  simp only [allocate, lowestFree_searchStart h]
  rfl

theorem toNat_ofNat_of_assignable {a : Allocator} (h : a.Sound) {n : Nat}
    (hn : a.pool.assignableNumber n = true) : (Ipv4.ofNat n).toNat = n := by
  have hlast := h.last_lt
  have := (Pool.assignableNumber_iff.mp hn).2.1
  exact Ipv4.toNat_ofNat (by omega)

/-- A number is found exactly when its address is the lowest free one. -/
theorem lowestFree_eq_some_iff_free {a : Allocator} (h : a.Sound) {known : List String}
    {address : Ipv4} :
    lowestFree a.pool (a.taken known) a.pool.first = some address.toNat ↔
      a.Free known address ∧ ∀ other, a.Free known other → address.toNat ≤ other.toNat := by
  rw [lowestFree_eq_some_iff (le_refl _), free_iff]
  constructor
  · rintro ⟨-, hassign, hfree, hbelow⟩
    refine ⟨⟨hassign, hfree⟩, fun other hother => ?_⟩
    obtain ⟨hassign', hfree'⟩ := free_iff.mp hother
    by_contra hlt
    have hfirst := (Pool.assignableNumber_iff.mp hassign').1
    exact hfree' (hbelow other.toNat hfirst (by omega) hassign')
  · rintro ⟨⟨hassign, hfree⟩, hlowest⟩
    refine ⟨(Pool.assignableNumber_iff.mp hassign).1, hassign, hfree, fun m _ hlt hm => ?_⟩
    by_contra hmem
    have hval := toNat_ofNat_of_assignable h hm
    have hother := hlowest (.ofNat m) (free_iff.mpr (by rw [hval]; exact ⟨hm, hmem⟩))
    rw [hval] at hother
    omega

theorem lowestFree_eq_none_iff_free {a : Allocator} (h : a.Sound) {known : List String} :
    lowestFree a.pool (a.taken known) a.pool.first = none ↔ ∀ address, ¬a.Free known address := by
  rw [lowestFree_eq_none_iff (le_refl _)]
  constructor
  · intro hall address hfree
    obtain ⟨hassign, hmem⟩ := free_iff.mp hfree
    exact hmem (hall _ (Pool.assignableNumber_iff.mp hassign).1 hassign)
  · intro hnone m _ hm
    by_contra hmem
    have hval := toNat_ofNat_of_assignable h hm
    exact hnone (.ofNat m) (free_iff.mpr (by rw [hval]; exact ⟨hm, hmem⟩))

/-- **An allocation either grants the lowest free address or finds none free.** -/
theorem allocate_cases {a : Allocator} (h : a.Sound) (known : List String) (now : Timestamp) :
    (∃ address, a.Free known address ∧ (∀ other, a.Free known other → address.toNat ≤ other.toNat) ∧
      a.allocate known now = (.ok (.host address), a.grant address.toNat now)) ∨
    ((∀ address, ¬a.Free known address) ∧
      a.allocate known now = (.error (.exhausted a.pool.network), a.refuse)) := by
  rw [allocate_eq h]
  cases hfound : lowestFree a.pool (a.taken known) a.pool.first with
  | none => exact Or.inr ⟨(lowestFree_eq_none_iff_free h).mp hfound, rfl⟩
  | some n =>
      have hassign := ((lowestFree_eq_some_iff (le_refl _)).mp hfound).2.1
      have hval := toNat_ofNat_of_assignable h hassign
      rw [← hval] at hfound
      obtain ⟨hfree, hlowest⟩ := (lowestFree_eq_some_iff_free h).mp hfound
      exact Or.inl ⟨.ofNat n, hfree, hlowest, by simp only [hval]⟩

/-- The address that is granted is the lowest free one. -/
theorem allocate_eq_ok_iff {a : Allocator} (h : a.Sound) {known : List String} {now : Timestamp}
    {address : Ipv4} :
    (a.allocate known now).1 = .ok (.host address) ↔
      a.Free known address ∧ ∀ other, a.Free known other → address.toNat ≤ other.toNat := by
  rcases allocate_cases h known now with ⟨granted, hfree, hlowest, heq⟩ | ⟨hnone, heq⟩
  · rw [heq]
    constructor
    · intro hok
      have hsame : granted = address := by simpa [Network.host] using hok
      rw [← hsame]
      exact ⟨hfree, hlowest⟩
    · rintro ⟨hfree', hlowest'⟩
      have hsame : granted = address :=
        Ipv4.ext_toNat (le_antisymm (hlowest address hfree') (hlowest' granted hfree))
      rw [hsame]
  · rw [heq]
    simp only [reduceCtorEq, false_iff]
    exact fun hfree => hnone address hfree.1

/-- An allocation fails when no address is free. -/
theorem allocate_eq_error_iff {a : Allocator} (h : a.Sound) {known : List String}
    {now : Timestamp} :
    (a.allocate known now).1 = .error (.exhausted a.pool.network) ↔
      ∀ address, ¬a.Free known address := by
  rcases allocate_cases h known now with ⟨granted, hfree, -, heq⟩ | ⟨hnone, heq⟩
  · rw [heq]
    simp only [reduceCtorEq, false_iff, not_forall, not_not]
    exact ⟨granted, hfree⟩
  · rw [heq]
    simp only [true_iff]
    exact hnone

/-! ## Every operation keeps an allocator sound -/

theorem sound_create {pool : Pool} (h : pool.last < UInt32.size) (strategy : Strategy) :
    (create pool strategy).Sound where
  nodup_reserved := List.nodup_nil
  assignable_of_reserved := by simp [create]
  first_le_floor := le_refl _
  last_lt := h

theorem sound_grant {a : Allocator} (h : a.Sound) {n : Nat}
    (hn : a.pool.assignableNumber n = true) (now : Timestamp) : (a.grant n now).Sound where
  nodup_reserved := h.nodup_reserved.insert
  assignable_of_reserved m hm := by
    rcases List.mem_insert_iff.mp hm with rfl | hm
    · exact hn
    · exact h.assignable_of_reserved m hm
  first_le_floor := by
    have hlast := h.last_lt
    have hrange := Pool.assignableNumber_iff.mp hn
    show a.pool.first ≤ min (n + 1) (UInt32.size - 1)
    omega
  last_lt := h.last_lt

theorem sound_refuse {a : Allocator} (h : a.Sound) : a.refuse.Sound :=
  ⟨h.nodup_reserved, h.assignable_of_reserved, h.first_le_floor, h.last_lt⟩

theorem sound_allocate {a : Allocator} (h : a.Sound) (known : List String) (now : Timestamp) :
    (a.allocate known now).2.Sound := by
  rcases allocate_cases h known now with ⟨address, hfree, -, heq⟩ | ⟨-, heq⟩
  · rw [heq]; exact sound_grant h hfree.1 now
  · rw [heq]; exact sound_refuse h

theorem sound_release {a : Allocator} (h : a.Sound) (address : Ipv4) :
    (a.release address).2.Sound := by
  unfold release
  split
  · rename_i hassign
    have hfirst := (Pool.assignableNumber_iff.mp hassign).1
    have hfloor := h.first_le_floor
    exact
      { nodup_reserved := h.nodup_reserved.filter _
        assignable_of_reserved := fun n hn => h.assignable_of_reserved n (List.mem_filter.mp hn).1
        first_le_floor := by show a.pool.first ≤ min address.toNat a.floor; omega
        last_lt := h.last_lt }
  · exact h

/-- What is reserved after a release: all but the address, provided it may be handed out; an
address that may not was never reserved. -/
theorem mem_reserved_release {a : Allocator} (h : a.Sound) (address : Ipv4) (n : Nat) :
    n ∈ (a.release address).2.reserved ↔ n ∈ a.reserved ∧ n ≠ address.toNat := by
  unfold release
  split
  · simp [List.mem_filter]
  · rename_i hassign
    refine ⟨fun hn => ⟨hn, fun heq => hassign ?_⟩, And.left⟩
    rw [Pool.assignable, ← heq]
    exact h.assignable_of_reserved n hn

@[simp] theorem pool_grant (a : Allocator) (n : Nat) (now : Timestamp) :
    (a.grant n now).pool = a.pool := rfl

@[simp] theorem pool_refuse (a : Allocator) : a.refuse.pool = a.pool := rfl

@[simp] theorem pool_release (a : Allocator) (address : Ipv4) :
    (a.release address).2.pool = a.pool := by
  unfold release
  split <;> rfl

@[simp] theorem pool_allocate (a : Allocator) (known : List String) (now : Timestamp) :
    (a.allocate known now).2.pool = a.pool := by
  unfold allocate
  dsimp only
  split <;> rfl

end Allocator

end OverlayVpn
