import Mathlib.Tactic.Common
import OverlayVpn.Key.Base64

set_option autoImplicit false

/-! # Base64 spells every byte string in one way

Reading is strict about padding and spare bits, so that a text that is read is the very text that
would be written (`symbols_of_decode`): group by group, the symbols that were read are those of the
bytes that they gave. Two texts of one byte string are therefore the same. What is written is read
(`decode_symbols`), whatever the number of bytes in the last group. -/

namespace OverlayVpn.Base64

/-- What a computation that goes on with another comes to, both come to. -/
theorem exists_of_bind_eq_ok {ε α β : Type} {x : Except ε α} {f : α → Except ε β} {b : β}
    (h : x >>= f = .ok b) : ∃ a, x = .ok a ∧ f a = .ok b := by
  cases x with
  | error fault => cases h
  | ok a => exact ⟨a, rfl, h⟩

/-! ## Symbols -/

/-- A symbol is the one of its six bits. -/
theorem symbol_of_value? {b : UInt8} {v : Nat} (h : value? b = some v) : v < 64 ∧ symbol v = b := by
  have hall : ∀ n < 256, (value? (UInt8.ofNat n)).all
      (fun v => decide (v < 64) && symbol v == UInt8.ofNat n) = true := by decide +kernel
  have hb := hall b.toNat b.toNat_lt
  rw [UInt8.ofNat_toNat, h] at hb
  simpa using hb

theorem symbol_of_valueAt {offset v : Nat} {b : UInt8} (h : valueAt offset b = .ok v) :
    v < 64 ∧ symbol v = b := by
  unfold valueAt at h
  split at h
  · next w hw =>
      obtain rfl := Except.ok.inj h
      exact symbol_of_value? hw
  · cases h

/-- Four symbols are those of the three bytes that they stand for. -/
theorem symbols_three {a b c d : Nat} (ha : a < 64) (hb : b < 64) (hc : c < 64) (hd : d < 64)
    (rest : List UInt8) :
    symbols (UInt8.ofNat (a * 4 + b / 16) :: UInt8.ofNat (b % 16 * 16 + c / 4) ::
      UInt8.ofNat (c % 4 * 64 + d) :: rest) =
      symbol a :: symbol b :: symbol c :: symbol d :: symbols rest := by
  have h1 : (UInt8.ofNat (a * 4 + b / 16)).toNat = a * 4 + b / 16 :=
    UInt8.toNat_ofNat_of_lt' (by show _ < 256; omega)
  have h2 : (UInt8.ofNat (b % 16 * 16 + c / 4)).toNat = b % 16 * 16 + c / 4 :=
    UInt8.toNat_ofNat_of_lt' (by show _ < 256; omega)
  have h3 : (UInt8.ofNat (c % 4 * 64 + d)).toNat = c % 4 * 64 + d :=
    UInt8.toNat_ofNat_of_lt' (by show _ < 256; omega)
  have e1 : (a * 4 + b / 16) / 4 = a := by omega
  have e2 : (a * 4 + b / 16) % 4 * 16 + (b % 16 * 16 + c / 4) / 16 = b := by omega
  have e3 : (b % 16 * 16 + c / 4) % 16 * 4 + (c % 4 * 64 + d) / 64 = c := by omega
  have e4 : (c % 4 * 64 + d) % 64 = d := by omega
  rw [symbols, h1, h2, h3, e1, e2, e3, e4]

/-! ## The last group -/

namespace LastGroup

/-- The bytes that a group was read from. -/
def spelling (group : LastGroup) : List UInt8 :=
  group.values.map symbol ++ List.replicate group.pads pad

/-- A group is read as it is spelt, and its symbols have six bits. -/
theorem spelling_of_scan {offset i : Nat} {group read : LastGroup} {bytes : List UInt8}
    (hvalues : ∀ v ∈ group.values, v < 64) (h : scan offset i group bytes = .ok read) :
    read.spelling = group.spelling ++ bytes ∧ ∀ v ∈ read.values, v < 64 := by
  induction bytes generalizing i group with
  | nil =>
      obtain rfl := Except.ok.inj h
      exact ⟨(List.append_nil _).symm, hvalues⟩
  | cons b rest ih =>
      unfold scan at h
      split at h
      · next hpad =>
          split at h
          · cases h
          · have hvalues' : ∀ v ∈ { group with pads := group.pads + 1 }.values, v < 64 := hvalues
            obtain ⟨hspelling, hread⟩ := ih hvalues' h
            refine ⟨?_, hread⟩
            rw [hspelling, hpad, spelling, spelling, List.replicate_succ', List.append_assoc,
              List.append_assoc, List.append_assoc, List.singleton_append]
      · split at h
        · cases h
        · next hpads =>
            cases hv : valueAt (offset + i) b with
            | error fault =>
                rw [hv] at h
                cases h
            | ok v =>
                rw [hv] at h
                obtain ⟨hlt, hsymbol⟩ := symbol_of_valueAt hv
                have hvalues' : ∀ w ∈ group.values ++ [v], w < 64 := by
                  intro w hw
                  rcases List.mem_append.mp hw with hw | hw
                  · exact hvalues w hw
                  · rw [List.mem_singleton.mp hw]
                    exact hlt
                obtain ⟨hspelling, hread⟩ := ih hvalues' h
                refine ⟨?_, hread⟩
                -- there are no pads before a symbol
                have hnone : group.pads = 0 := by omega
                rw [hspelling, spelling, spelling, hnone, List.map_append, List.map_cons,
                  List.map_nil, hsymbol]
                simp

/-- A group of at most four bytes is spelt with the symbols of its bytes. -/
theorem spelling_of_bytes {offset : Nat} {group : LastGroup} {out : List UInt8}
    (hvalues : ∀ v ∈ group.values, v < 64) (hlength : group.spelling.length ≤ 4)
    (h : group.bytes offset = .ok out) : group.spelling = symbols out := by
  obtain ⟨values, pads⟩ := group
  simp only [spelling, List.length_append, List.length_map, List.length_replicate] at hlength
  simp only [bytes] at h
  split at h
  · cases h
  · next hfull =>
      match values with
      | [] | [_] | _ :: _ :: _ :: _ :: _ :: _ => cases h
      | [a, b] =>
          simp only at h
          split at h
          · cases h
          · next hspare =>
              obtain rfl := Except.ok.inj h
              have hpads : pads = 2 := by
                simp only [List.length_cons, List.length_nil] at hfull hlength
                omega
              have ha : a < 64 := hvalues a (by simp)
              have hb : b < 64 := hvalues b (by simp)
              have h1 : (UInt8.ofNat (a * 4 + b / 16)).toNat = a * 4 + b / 16 :=
                UInt8.toNat_ofNat_of_lt' (by show _ < 256; omega)
              have e1 : (a * 4 + b / 16) / 4 = a := by omega
              have e2 : (a * 4 + b / 16) % 4 * 16 = b := by omega
              rw [symbols, h1, e1, e2, spelling, hpads]
              rfl
      | [a, b, c] =>
          simp only at h
          split at h
          · cases h
          · next hspare =>
              obtain rfl := Except.ok.inj h
              have hpads : pads = 1 := by
                simp only [List.length_cons, List.length_nil] at hfull hlength
                omega
              have ha : a < 64 := hvalues a (by simp)
              have hb : b < 64 := hvalues b (by simp)
              have hc : c < 64 := hvalues c (by simp)
              have h1 : (UInt8.ofNat (a * 4 + b / 16)).toNat = a * 4 + b / 16 :=
                UInt8.toNat_ofNat_of_lt' (by show _ < 256; omega)
              have h2 : (UInt8.ofNat (b % 16 * 16 + c / 4)).toNat = b % 16 * 16 + c / 4 :=
                UInt8.toNat_ofNat_of_lt' (by show _ < 256; omega)
              have e1 : (a * 4 + b / 16) / 4 = a := by omega
              have e2 : (a * 4 + b / 16) % 4 * 16 + (b % 16 * 16 + c / 4) / 16 = b := by omega
              have e3 : (b % 16 * 16 + c / 4) % 16 * 4 = c := by omega
              rw [symbols, h1, h2, e1, e2, e3, spelling, hpads]
              rfl
      | [a, b, c, d] =>
          simp only at h
          obtain rfl := Except.ok.inj h
          have hpads : pads = 0 := by
            simp only [List.length_cons, List.length_nil] at hfull hlength
            omega
          rw [symbols_three (hvalues a (by simp)) (hvalues b (by simp)) (hvalues c (by simp))
            (hvalues d (by simp)), spelling, hpads]
          rfl

end LastGroup

theorem symbols_of_readLast {offset : Nat} {bytes out : List UInt8} (hlength : bytes.length ≤ 4)
    (h : readLast offset bytes = .ok out) : symbols out = bytes := by
  unfold readLast at h
  cases bytes with
  | nil =>
      obtain rfl := Except.ok.inj h
      rfl
  | cons b rest =>
      simp only [List.isEmpty_cons, Bool.false_eq_true, if_false] at h
      obtain ⟨group, hscan, h⟩ := exists_of_bind_eq_ok h
      obtain ⟨hspelling, hvalues⟩ := LastGroup.spelling_of_scan (by simp) hscan
      have hsame : group.spelling = b :: rest := hspelling
      split at h
      · cases h
      · rw [← hsame]
        exact (LastGroup.spelling_of_bytes hvalues (by rw [hsame]; exact hlength) h).symm

/-! ## Texts -/

theorem readGroups_of_length_le {bytes : List UInt8} (h : bytes.length ≤ 4) (offset : Nat) :
    readGroups offset bytes = readLast offset bytes := by
  match bytes with
  | [] | [_] | [_, _] | [_, _, _] | [_, _, _, _] => rfl
  | a :: b :: c :: d :: e :: rest =>
      simp only [List.length_cons] at h
      omega

theorem symbols_of_readGroups {offset : Nat} {bytes out : List UInt8}
    (h : readGroups offset bytes = .ok out) : symbols out = bytes := by
  induction offset, bytes using readGroups.induct generalizing out with
  | case1 offset a b c d e rest ih =>
      rw [readGroups] at h
      obtain ⟨va, ha, h⟩ := exists_of_bind_eq_ok h
      obtain ⟨vb, hb, h⟩ := exists_of_bind_eq_ok h
      obtain ⟨vc, hc, h⟩ := exists_of_bind_eq_ok h
      obtain ⟨vd, hd, h⟩ := exists_of_bind_eq_ok h
      obtain ⟨more, hmore, h⟩ := exists_of_bind_eq_ok h
      obtain rfl := Except.ok.inj h
      obtain ⟨hlta, hsa⟩ := symbol_of_valueAt ha
      obtain ⟨hltb, hsb⟩ := symbol_of_valueAt hb
      obtain ⟨hltc, hsc⟩ := symbol_of_valueAt hc
      obtain ⟨hltd, hsd⟩ := symbol_of_valueAt hd
      rw [symbols_three hlta hltb hltc hltd, hsa, hsb, hsc, hsd, ih hmore]
  | case2 offset last hlast =>
      -- what is not five bytes or more is at most four
      have hlength : last.length ≤ 4 := by
        match last with
        | [] | [_] | [_, _] | [_, _, _] | [_, _, _, _] => simp
        | a :: b :: c :: d :: e :: rest => exact absurd rfl (hlast a b c d e rest)
      rw [readGroups_of_length_le hlength] at h
      exact symbols_of_readLast hlength h

/-- **A text that is read is the one that is written.** -/
theorem symbols_of_decode {bytes out : List UInt8} (h : decode bytes = .ok out) :
    symbols out = bytes := by
  unfold decode at h
  split at h
  · cases h
  · exact symbols_of_readGroups h

/-! ## What is written is read -/

theorem value?_symbol {v : Nat} (h : v < 64) : value? (symbol v) = some v := by
  have hall : ∀ v < 64, value? (symbol v) = some v := by decide +kernel
  exact hall v h

theorem symbol_ne_pad {v : Nat} (h : v < 64) : symbol v ≠ pad := by
  have hall : ∀ v < 64, symbol v ≠ pad := by decide +kernel
  exact hall v h

theorem valueAt_symbol {v : Nat} (h : v < 64) (offset : Nat) :
    valueAt offset (symbol v) = .ok v := by rw [valueAt, value?_symbol h]

theorem ofNat_eq {n : Nat} {b : UInt8} (h : n = b.toNat) : UInt8.ofNat n = b := by
  rw [h, UInt8.ofNat_toNat]

/-- Symbols are scanned as their values. -/
theorem LastGroup.scan_symbols {values : List Nat} (h : ∀ v ∈ values, v < 64) (offset i : Nat)
    {group : LastGroup} (hnone : group.pads = 0) (rest : List UInt8) :
    scan offset i group (values.map symbol ++ rest) =
      scan offset (i + values.length) { group with values := group.values ++ values } rest := by
  induction values generalizing i group with
  | nil => simp
  | cons v values ih =>
      obtain ⟨hv, hvalues⟩ := List.forall_mem_cons.mp h
      have hnone' : { group with values := group.values ++ [v] }.pads = 0 := hnone
      rw [List.map_cons, List.cons_append, scan, if_neg (symbol_ne_pad hv), if_neg (by omega),
        valueAt_symbol hv]
      show scan offset (i + 1) _ _ = _
      rw [ih hvalues (i + 1) hnone']
      simp [Nat.add_assoc, Nat.add_comm 1]

/-- Pads are counted. -/
theorem LastGroup.scan_pads (offset : Nat) {i : Nat} (hi : 2 ≤ i) (group : LastGroup) (n : Nat) :
    scan offset i group (List.replicate n pad) = .ok { group with pads := group.pads + n } := by
  induction n generalizing i group with
  | zero => rfl
  | succ n ih =>
      rw [List.replicate_succ, scan, if_pos rfl, if_neg (by omega), ih (by omega)]
      simp [Nat.add_assoc, Nat.add_comm 1]

/-- A last group of two symbols or more is read as its bytes. -/
theorem readLast_spelling {offset : Nat} {values : List Nat} (h : ∀ v ∈ values, v < 64)
    (hlength : 2 ≤ values.length) (pads : Nat) :
    readLast offset (LastGroup.spelling ⟨values, pads⟩) = LastGroup.bytes offset ⟨values, pads⟩ := by
  have hne : (LastGroup.spelling ⟨values, pads⟩).isEmpty = false := by
    cases values with
    | nil => simp at hlength
    | cons v values => rfl
  have hscan : LastGroup.scan offset 0 {} (LastGroup.spelling ⟨values, pads⟩) =
      .ok ⟨values, pads⟩ := by
    rw [LastGroup.spelling, LastGroup.scan_symbols h offset 0 rfl,
      LastGroup.scan_pads offset (by omega)]
    simp
  rw [readLast, hne, hscan]
  simp only [Bool.false_eq_true, if_false, bind, Except.bind, if_neg (Nat.not_lt.mpr hlength)]

theorem LastGroup.bytes_two {offset a b : Nat} (hspare : b % 16 = 0) :
    bytes offset ⟨[a, b], 2⟩ = .ok [UInt8.ofNat (a * 4 + b / 16)] := by
  rw [bytes, if_neg (by simp)]
  simp only [hspare, ne_eq, not_true_eq_false, if_false]

theorem LastGroup.bytes_three {offset a b c : Nat} (hspare : c % 4 = 0) :
    bytes offset ⟨[a, b, c], 1⟩ =
      .ok [UInt8.ofNat (a * 4 + b / 16), UInt8.ofNat (b % 16 * 16 + c / 4)] := by
  rw [bytes, if_neg (by simp)]
  simp only [hspare, ne_eq, not_true_eq_false, if_false]

/-! The symbols of one, two or three bytes are read as these. -/

theorem readLast_one (offset : Nat) (a : UInt8) : readLast offset (symbols [a]) = .ok [a] := by
  have ha : a.toNat < 256 := a.toNat_lt
  have hvalues : ∀ v ∈ [a.toNat / 4, a.toNat % 4 * 16], v < 64 := by
    simp only [List.forall_mem_cons, List.not_mem_nil, false_implies, implies_true, and_true]
    omega
  have hbyte : UInt8.ofNat (a.toNat / 4 * 4 + a.toNat % 4 * 16 / 16) = a := ofNat_eq (by omega)
  calc readLast offset (symbols [a])
      = LastGroup.bytes offset ⟨[a.toNat / 4, a.toNat % 4 * 16], 2⟩ :=
        readLast_spelling hvalues (Nat.le_refl 2) 2
    _ = .ok [a] := by rw [LastGroup.bytes_two (by omega), hbyte]

theorem readLast_two (offset : Nat) (a b : UInt8) :
    readLast offset (symbols [a, b]) = .ok [a, b] := by
  have ha : a.toNat < 256 := a.toNat_lt
  have hb : b.toNat < 256 := b.toNat_lt
  have hvalues : ∀ v ∈ [a.toNat / 4, a.toNat % 4 * 16 + b.toNat / 16, b.toNat % 16 * 4],
      v < 64 := by
    simp only [List.forall_mem_cons, List.not_mem_nil, false_implies, implies_true, and_true]
    omega
  have hfirst : UInt8.ofNat (a.toNat / 4 * 4 + (a.toNat % 4 * 16 + b.toNat / 16) / 16) = a :=
    ofNat_eq (by omega)
  have hsecond : UInt8.ofNat ((a.toNat % 4 * 16 + b.toNat / 16) % 16 * 16 +
      b.toNat % 16 * 4 / 4) = b := ofNat_eq (by omega)
  calc readLast offset (symbols [a, b])
      = LastGroup.bytes offset
          ⟨[a.toNat / 4, a.toNat % 4 * 16 + b.toNat / 16, b.toNat % 16 * 4], 1⟩ :=
        readLast_spelling hvalues (by simp) 1
    _ = .ok [a, b] := by rw [LastGroup.bytes_three (by omega), hfirst, hsecond]

/-- Four symbols stand for the three bytes that they are the symbols of. -/
theorem bytes_of_values (a b c : UInt8) :
    UInt8.ofNat (a.toNat / 4 * 4 + (a.toNat % 4 * 16 + b.toNat / 16) / 16) = a ∧
      UInt8.ofNat ((a.toNat % 4 * 16 + b.toNat / 16) % 16 * 16 +
        (b.toNat % 16 * 4 + c.toNat / 64) / 4) = b ∧
      UInt8.ofNat ((b.toNat % 16 * 4 + c.toNat / 64) % 4 * 64 + c.toNat % 64) = c := by
  have ha : a.toNat < 256 := a.toNat_lt
  have hb : b.toNat < 256 := b.toNat_lt
  have hc : c.toNat < 256 := c.toNat_lt
  exact ⟨ofNat_eq (by omega), ofNat_eq (by omega), ofNat_eq (by omega)⟩

theorem values_lt (a b c : UInt8) :
    ∀ v ∈ [a.toNat / 4, a.toNat % 4 * 16 + b.toNat / 16, b.toNat % 16 * 4 + c.toNat / 64,
      c.toNat % 64], v < 64 := by
  have ha : a.toNat < 256 := a.toNat_lt
  have hb : b.toNat < 256 := b.toNat_lt
  have hc : c.toNat < 256 := c.toNat_lt
  simp only [List.forall_mem_cons, List.not_mem_nil, false_implies, implies_true, and_true]
  omega

theorem readLast_three (offset : Nat) (a b c : UInt8) :
    readLast offset (symbols [a, b, c]) = .ok [a, b, c] := by
  obtain ⟨hfirst, hsecond, hthird⟩ := bytes_of_values a b c
  calc readLast offset (symbols [a, b, c])
      = LastGroup.bytes offset ⟨[a.toNat / 4, a.toNat % 4 * 16 + b.toNat / 16,
          b.toNat % 16 * 4 + c.toNat / 64, c.toNat % 64], 0⟩ :=
        readLast_spelling (values_lt a b c) (by simp) 0
    _ = .ok [a, b, c] := by
        rw [LastGroup.bytes, if_neg (by simp)]
        simp only [hfirst, hsecond, hthird]

theorem readGroups_four {offset a b c d : Nat} (h : ∀ v ∈ [a, b, c, d], v < 64)
    {rest out : List UInt8} (hne : rest ≠ []) (hrest : readGroups (offset + 4) rest = .ok out) :
    readGroups offset (symbol a :: symbol b :: symbol c :: symbol d :: rest) =
      .ok (UInt8.ofNat (a * 4 + b / 16) :: UInt8.ofNat (b % 16 * 16 + c / 4) ::
        UInt8.ofNat (c % 4 * 64 + d) :: out) := by
  simp only [List.forall_mem_cons, List.not_mem_nil, false_implies, implies_true, and_true] at h
  obtain ⟨ha, hb, hc, hd⟩ := h
  cases rest with
  | nil => exact absurd rfl hne
  | cons e rest =>
      rw [readGroups, valueAt_symbol ha, valueAt_symbol hb, valueAt_symbol hc, valueAt_symbol hd,
        hrest]
      rfl

theorem length_symbols (bytes : List UInt8) : (symbols bytes).length % 4 = 0 := by
  induction bytes using symbols.induct with
  | case1 => rfl
  | case2 a => simp [symbols]
  | case3 a b => simp [symbols]
  | case4 a b c rest ih =>
      simp only [symbols, List.length_cons]
      omega

theorem symbols_eq_nil_iff {bytes : List UInt8} : symbols bytes = [] ↔ bytes = [] := by
  match bytes with
  | [] => simp [symbols]
  | [a] | [a, b] | a :: b :: c :: rest => simp [symbols]

theorem readGroups_symbols (offset : Nat) (bytes : List UInt8) :
    readGroups offset (symbols bytes) = .ok bytes := by
  induction bytes using symbols.induct generalizing offset with
  | case1 => rfl
  | case2 a => exact (readGroups_of_length_le (by simp [symbols]) offset).trans (readLast_one offset a)
  | case3 a b =>
      exact (readGroups_of_length_le (by simp [symbols]) offset).trans (readLast_two offset a b)
  | case4 a b c rest ih =>
      by_cases hrest : rest = []
      · subst hrest
        exact (readGroups_of_length_le (by simp [symbols]) offset).trans
          (readLast_three offset a b c)
      · obtain ⟨hfirst, hsecond, hthird⟩ := bytes_of_values a b c
        have hne : symbols rest ≠ [] := fun hnil => hrest (symbols_eq_nil_iff.mp hnil)
        rw [symbols, readGroups_four (values_lt a b c) hne (ih (offset + 4)), hfirst, hsecond,
          hthird]

/-- **What is written is read.** -/
theorem decode_symbols (bytes : List UInt8) : decode (symbols bytes) = .ok bytes := by
  have hend : strayEnd (symbols bytes) = none := by
    rw [strayEnd, length_symbols]
    rfl
  rw [decode, hend]
  exact readGroups_symbols 0 bytes

theorem decode_eq_ok_iff {bytes out : List UInt8} : decode bytes = .ok out ↔ bytes = symbols out :=
  ⟨fun h => (symbols_of_decode h).symm, fun h => h ▸ decode_symbols out⟩

/-- What is written is made of symbols and pads. -/
theorem mem_symbols {bytes : List UInt8} {b : UInt8} (h : b ∈ symbols bytes) :
    (∃ v < 64, b = symbol v) ∨ b = pad := by
  induction bytes using symbols.induct with
  | case1 => cases h
  | case2 x =>
      have hx : x.toNat < 256 := x.toNat_lt
      simp only [symbols, List.mem_cons, List.not_mem_nil, or_false] at h
      rcases h with rfl | rfl | rfl | rfl
      · exact Or.inl ⟨_, by omega, rfl⟩
      · exact Or.inl ⟨_, by omega, rfl⟩
      · exact Or.inr rfl
      · exact Or.inr rfl
  | case3 x y =>
      have hx : x.toNat < 256 := x.toNat_lt
      have hy : y.toNat < 256 := y.toNat_lt
      simp only [symbols, List.mem_cons, List.not_mem_nil, or_false] at h
      rcases h with rfl | rfl | rfl | rfl
      · exact Or.inl ⟨_, by omega, rfl⟩
      · exact Or.inl ⟨_, by omega, rfl⟩
      · exact Or.inl ⟨_, by omega, rfl⟩
      · exact Or.inr rfl
  | case4 x y z rest ih =>
      have hx : x.toNat < 256 := x.toNat_lt
      have hy : y.toNat < 256 := y.toNat_lt
      have hz : z.toNat < 256 := z.toNat_lt
      simp only [symbols, List.mem_cons] at h
      rcases h with rfl | rfl | rfl | rfl | h
      · exact Or.inl ⟨_, by omega, rfl⟩
      · exact Or.inl ⟨_, by omega, rfl⟩
      · exact Or.inl ⟨_, by omega, rfl⟩
      · exact Or.inl ⟨_, by omega, rfl⟩
      · exact ih h

end OverlayVpn.Base64
