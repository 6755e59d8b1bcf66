import Mathlib.Data.List.Basic
import Mathlib.Data.List.Induction
import OverlayVpn.Engine.DeviceState
import OverlayVpn.Proofs.Text.Blank
import OverlayVpn.Proofs.Text.Decimal

set_option autoImplicit false

/-! # What a device's lines tell

The lines that an engine tells of its device fall into sections: the device's own lines come first,
and each line with a public key opens the section of a peer. Which fields a section sets, and to
what, is said here of its lines as a whole (`PeerState.told`, `DeviceState.told`), and reading line
by line comes to just that (`ofLines_eq_ok_iff`): each line more does to the state what it does to
the sections (`add_told`). -/

namespace OverlayVpn.Engine

open Text

/-! ## Lines and sections -/

/-- The name and the value on a line. -/
def named? (line : String) : Option (String × String) := cut '=' (trim line)

/-- The value that a line gives a name. -/
def valueOf? (name line : String) : Option String :=
  (named? line).bind fun e => if e.1 = name then some e.2 else none

/-- The values that lines give a name, in order. -/
def valuesOf (name : String) (lines : List String) : List String :=
  lines.filterMap (valueOf? name)

/-- The key of the peer whose section a line opens. -/
def opened? (line : String) : Option String := valueOf? "public_key" line

/-- The lines up to the first that opens a section. -/
def ownLines (lines : List String) : List String :=
  lines.takeWhile fun line => (opened? line).isNone

/-- The keys of the peers, each with the lines of its section. -/
def peerSections : List String → List (String × List String)
  | [] => []
  | line :: rest =>
    match opened? line with
    | some key => (key, ownLines rest) :: peerSections rest
    | none => peerSections rest

/-! ## What sections tell -/

/-- The numbers in the section of a peer, each with the texts that it may have. -/
def counters : List (String × (String → Bool)) :=
  [("rx_bytes", fun value => (Decimal.word64? value).isSome),
    ("tx_bytes", fun value => (Decimal.word64? value).isSome),
    ("last_handshake_time_sec", fun value => (Decimal.signed64? value).isSome),
    ("last_handshake_time_nsec", fun value => (Decimal.word32? value).isSome)]

/-- The last value that lines give a name, read as a number. -/
def lastNumber {α : Type} (read : String → Option α) (name : String) (lines : List String) :
    Option α :=
  (valuesOf name lines).getLast?.bind read

/-- The peer that the lines of a section tell of. -/
def PeerState.told (key : String) (lines : List String) : PeerState where
  publicKey := key
  endpoint := (valuesOf "endpoint" lines).getLast?
  allowedIps := valuesOf "allowed_ip" lines
  received := (lastNumber Decimal.word64? "rx_bytes" lines).getD 0
  sent := (lastNumber Decimal.word64? "tx_bytes" lines).getD 0
  handshakeSeconds := (lastNumber Decimal.signed64? "last_handshake_time_sec" lines).getD 0
  handshakeNanos := (lastNumber Decimal.word32? "last_handshake_time_nsec" lines).getD 0

/-- The device that lines tell of. -/
def DeviceState.told (lines : List String) : DeviceState where
  listenPort := lastNumber Decimal.word16? "listen_port" (ownLines lines)
  peers := (peerSections lines).map fun (key, lines) => .told key lines

/-- Whether a line is blank or has a name and a value. -/
def WellFormed (line : String) : Prop := trim line ≠ "" → '=' ∈ (trim line).toList

/-- Whether all numbers in the section of a peer can be read. -/
def Counted (lines : List String) : Prop :=
  ∀ counter ∈ counters, ∀ value ∈ valuesOf counter.1 lines, counter.2 value = true

/-- Lines that can be read: each is blank or has a name and a value, and so can the numbers where
they count. -/
structure Readable (lines : List String) : Prop where
  entries : ∀ line ∈ lines, WellFormed line
  port : ∀ value ∈ valuesOf "listen_port" (ownLines lines), (Decimal.word16? value).isSome = true
  counted : ∀ s ∈ peerSections lines, Counted s.2

variable {line name value : String}

theorem ownLines_cons_opened {key : String} (h : opened? line = some key) (rest : List String) :
    ownLines (line :: rest) = [] := by
  rw [ownLines, List.takeWhile_cons, h]
  rfl

theorem ownLines_cons (h : opened? line = none) (rest : List String) :
    ownLines (line :: rest) = line :: ownLines rest := by
  rw [ownLines, List.takeWhile_cons, h]
  rfl

theorem peerSections_nil : peerSections [] = [] := rfl

theorem peerSections_cons_opened {key : String} (h : opened? line = some key)
    (rest : List String) :
    peerSections (line :: rest) = (key, ownLines rest) :: peerSections rest := by
  rw [peerSections, h]

theorem peerSections_cons (h : opened? line = none) (rest : List String) :
    peerSections (line :: rest) = peerSections rest := by
  rw [peerSections, h]

theorem isSome_cutAt {c : Char} {cs : List Char} : (cutAt c cs).isSome = true ↔ c ∈ cs := by
  induction cs with
  | nil => simp [cutAt]
  | cons x cs ih =>
      rw [cutAt]
      split
      · next heq => simp [heq]
      · next hne => simp [ih, Ne.symm hne]

theorem isSome_named? : (named? line).isSome = true ↔ '=' ∈ (trim line).toList := by
  rw [named?, cut, Option.isSome_map, isSome_cutAt]

theorem valueOf?_eq (h : named? line = some (name, value)) (other : String) :
    valueOf? other line = if name = other then some value else none := by
  rw [valueOf?, h, Option.bind_some]

theorem valueOf?_of_none (h : named? line = none) (other : String) : valueOf? other line = none := by
  rw [valueOf?, h, Option.bind_none]

theorem valuesOf_concat (other : String) (lines : List String) (line : String) :
    valuesOf other (lines ++ [line]) = valuesOf other lines ++ (valueOf? other line).toList := by
  rw [valuesOf, List.filterMap_append]
  cases h : valueOf? other line <;> simp [valuesOf, h]

theorem lastNumber_concat {α : Type} (read : String → Option α) (other : String)
    (lines : List String) (line : String) :
    lastNumber read other (lines ++ [line]) =
      match valueOf? other line with
      | some value => read value
      | none => lastNumber read other lines := by
  rw [lastNumber, valuesOf_concat]
  cases valueOf? other line with
  | none => simp [lastNumber]
  | some value => simp

/-! ## One line more -/

theorem peerSections_eq_nil_iff {lines : List String} :
    peerSections lines = [] ↔ ∀ line ∈ lines, opened? line = none := by
  induction lines with
  | nil => simp [peerSections_nil]
  | cons line lines ih =>
      rw [List.forall_mem_cons]
      cases h : opened? line with
      | none => rw [peerSections_cons h, ih, and_iff_right rfl]
      | some key => simp [peerSections_cons_opened h]

theorem peerSections_append {lines : List String} (h : peerSections lines = [])
    (rest : List String) : peerSections (lines ++ rest) = peerSections rest := by
  induction lines with
  | nil => rfl
  | cons line lines ih =>
      obtain ⟨hline, hlines⟩ := List.forall_mem_cons.mp (peerSections_eq_nil_iff.mp h)
      rw [List.cons_append, peerSections_cons hline]
      exact ih (peerSections_eq_nil_iff.mpr hlines)

theorem ownLines_append {lines : List String} (h : peerSections lines = []) (rest : List String) :
    ownLines (lines ++ rest) = lines ++ ownLines rest := by
  rw [ownLines, List.takeWhile_append_of_pos fun line hline => by
    rw [peerSections_eq_nil_iff.mp h line hline]; rfl]
  rfl

theorem ownLines_append_of_sections {lines : List String} (h : peerSections lines ≠ [])
    (rest : List String) : ownLines (lines ++ rest) = ownLines lines := by
  induction lines with
  | nil => exact absurd rfl h
  | cons line lines ih =>
      rw [List.cons_append]
      cases hline : opened? line with
      | some key => rw [ownLines_cons_opened hline, ownLines_cons_opened hline]
      | none =>
          rw [peerSections_cons hline] at h
          rw [ownLines_cons hline, ownLines_cons hline, ih h]

theorem ownLines_eq_self {lines : List String} (h : peerSections lines = []) :
    ownLines lines = lines := by
  have hall := ownLines_append h []
  rw [List.append_nil] at hall
  simpa [ownLines] using hall

/-- **The sections have the keys of the lines with a public key**, in order. -/
theorem keys_peerSections (lines : List String) :
    (peerSections lines).map (·.1) = valuesOf "public_key" lines := by
  induction lines with
  | nil => rfl
  | cons line lines ih =>
      rw [valuesOf, List.filterMap_cons, ← opened?, ← valuesOf, ← ih]
      cases h : opened? line with
      | none => rw [peerSections_cons h]
      | some key => rw [peerSections_cons_opened h, List.map_cons]

/-- **Lines that are put together of sections have these sections.** -/
theorem peerSections_flatMap {ι : Type} {xs : List ι} {header key : ι → String}
    {body : ι → List String} (hopen : ∀ x ∈ xs, opened? (header x) = some (key x))
    (hbody : ∀ x ∈ xs, peerSections (body x) = []) :
    ownLines (xs.flatMap fun x => header x :: body x) = [] ∧
      peerSections (xs.flatMap fun x => header x :: body x) = xs.map fun x => (key x, body x) := by
  induction xs with
  | nil => exact ⟨rfl, rfl⟩
  | cons x xs ih =>
      obtain ⟨hx, hxs⟩ := List.forall_mem_cons.mp hopen
      obtain ⟨hnone, hrest⟩ := List.forall_mem_cons.mp hbody
      obtain ⟨hown, hsections⟩ := ih hxs hrest
      rw [List.flatMap_cons, List.cons_append]
      constructor
      · exact ownLines_cons_opened hx _
      · rw [peerSections_cons_opened hx]
        simp only [ownLines_append hnone, hown, List.append_nil, peerSections_append hnone,
          hsections, List.map_cons]

theorem ownLines_singleton (h : opened? line = none) : ownLines [line] = [line] :=
  ownLines_cons h []

theorem peerSections_singleton (h : opened? line = none) : peerSections [line] = [] :=
  peerSections_cons h []

/-- A line with a public key leaves the lines before it to what they were. -/
theorem ownLines_concat_opened {line key : String} (h : opened? line = some key)
    (lines : List String) : ownLines (lines ++ [line]) = ownLines lines := by
  by_cases hnone : peerSections lines = []
  · rw [ownLines_append hnone, ownLines_cons_opened h, List.append_nil, ownLines_eq_self hnone]
  · exact ownLines_append_of_sections hnone [line]

/-- **A line with a public key opens a section.** -/
theorem peerSections_concat_opened {line key : String} (h : opened? line = some key)
    (lines : List String) : peerSections (lines ++ [line]) = peerSections lines ++ [(key, [])] := by
  induction lines with
  | nil => exact peerSections_cons_opened h []
  | cons first lines ih =>
      rw [List.cons_append]
      cases hfirst : opened? first with
      | none => rw [peerSections_cons hfirst, peerSections_cons hfirst, ih]
      | some other =>
          rw [peerSections_cons_opened hfirst, peerSections_cons_opened hfirst,
            ownLines_concat_opened h, ih, List.cons_append]

/-- **Any other line belongs to the last section.** -/
theorem peerSections_concat {line : String} (h : opened? line = none) {lines : List String}
    {before : List (String × List String)} {key : String} {last : List String}
    (hlast : peerSections lines = before ++ [(key, last)]) :
    peerSections (lines ++ [line]) = before ++ [(key, last ++ [line])] := by
  induction lines generalizing before with
  | nil => simp [peerSections_nil] at hlast
  | cons first lines ih =>
      rw [List.cons_append]
      cases hfirst : opened? first with
      | none =>
          rw [peerSections_cons hfirst] at hlast
          rw [peerSections_cons hfirst]
          exact ih hlast
      | some other =>
          rw [peerSections_cons_opened hfirst] at hlast
          rw [peerSections_cons_opened hfirst]
          cases before with
          | nil =>
              -- the section that was opened first is the only one
              obtain ⟨heq, hnone⟩ := List.cons.inj hlast
              obtain ⟨rfl, rfl⟩ := Prod.mk.inj heq
              rw [ownLines_append hnone, peerSections_append hnone, ownLines_singleton h,
                peerSections_singleton h, ownLines_eq_self hnone]
              rfl
          | cons s before =>
              obtain ⟨rfl, hrest⟩ := List.cons.inj hlast
              have hsome : peerSections lines ≠ [] := by rw [hrest]; simp
              rw [ownLines_append_of_sections hsome, ih hrest]
              rfl

/-! ## A peer's lines -/

theorem map_numberOf_eq_ok_iff {α β : Type} {read : String → Option α} {f : α → β} (default : α)
    {state : β} :
    (numberOf name value read).map f = .ok state ↔
      (read value).isSome = true ∧ state = f ((read value).getD default) := by
  unfold numberOf
  cases read value with
  | none => simp [Except.map]
  | some n => simp [Except.map, eq_comm (a := f n)]

/-- **A line more does to a peer what it does to its section**, unless it holds a number that cannot
be read. -/
theorem set_told (h : named? line = some (name, value)) {key : String} {lines : List String}
    {peer : PeerState} :
    (PeerState.told key lines).set name value = .ok peer ↔
      (∀ counter ∈ counters, counter.1 = name → counter.2 value = true) ∧
        peer = .told key (lines ++ [line]) := by
  simp only [PeerState.told, valuesOf_concat, lastNumber_concat, valueOf?_eq h]
  unfold PeerState.set
  split
  case h_1 => simpa [counters] using eq_comm
  case h_2 => simpa [counters] using eq_comm
  -- the four numbers
  case h_3 =>
    rw [map_numberOf_eq_ok_iff 0]
    simp [counters]
  case h_4 =>
    rw [map_numberOf_eq_ok_iff 0]
    simp [counters]
  case h_5 =>
    rw [map_numberOf_eq_ok_iff 0]
    simp [counters]
  case h_6 =>
    rw [map_numberOf_eq_ok_iff 0]
    simp [counters]
  -- any other name
  case h_7 endpoint allowed received sent seconds nanos =>
    simp only [imp_false] at endpoint allowed received sent seconds nanos
    simpa [counters, endpoint, allowed, received, sent, seconds, nanos, Ne.symm received,
      Ne.symm sent, Ne.symm seconds, Ne.symm nanos] using eq_comm

/-! ## Line by line -/

variable {state : DeviceState} {lines : List String}

theorem trim_ne_empty_of_named? (h : named? line = some (name, value)) : trim line ≠ "" := by
  intro hblank
  rw [named?, hblank] at h
  cases h

theorem add_of_blank (h : trim line = "") (state : DeviceState) : state.add line = .ok state := by
  simp [DeviceState.add, h]

theorem add_of_named? (h : named? line = some (name, value)) (state : DeviceState) :
    state.add line = state.set name value := by
  have hne : (trim line).isEmpty = false := by simpa using trim_ne_empty_of_named? h
  rw [named?] at h
  simp [DeviceState.add, hne, h]

theorem add_of_none (hne : trim line ≠ "") (h : named? line = none) (state : DeviceState) :
    state.add line = .error (.malformed (trim line)) := by
  have hne' : (trim line).isEmpty = false := by simpa using hne
  rw [named?] at h
  simp [DeviceState.add, hne', h]

theorem named?_of_blank (h : trim line = "") : named? line = none := by rw [named?, h]; rfl

theorem opened?_eq_some_iff (h : named? line = some (name, value)) {key : String} :
    opened? line = some key ↔ name = "public_key" ∧ value = key := by
  rw [opened?, valueOf?_eq h]
  split <;> simp_all

/-- Lines have sections, or they are all the device's own. -/
theorem peerSections_cases (lines : List String) :
    peerSections lines = [] ∨
      ∃ before key last, peerSections lines = before ++ [(key, last)] := by
  rcases List.eq_nil_or_concat (peerSections lines) with hnil | ⟨before, ⟨key, last⟩, h⟩
  · exact Or.inl hnil
  · exact Or.inr ⟨before, key, last, h.trans (List.concat_eq_append)⟩

theorem counted_concat (h : named? line = some (name, value)) :
    Counted (lines ++ [line]) ↔
      Counted lines ∧ ∀ counter ∈ counters, counter.1 = name → counter.2 value = true := by
  have hone (counter : String × (String → Bool)) :
      (∀ v ∈ valuesOf counter.1 (lines ++ [line]), counter.2 v = true) ↔
        (∀ v ∈ valuesOf counter.1 lines, counter.2 v = true) ∧
          (counter.1 = name → counter.2 value = true) := by
    rw [valuesOf_concat, valueOf?_eq h, List.forall_mem_append]
    by_cases heq : name = counter.1 <;> simp [heq, eq_comm (a := counter.1)]
  simp only [Counted, hone, forall_and]

theorem counted_concat_of_none (h : named? line = none) :
    Counted (lines ++ [line]) ↔ Counted lines := by
  simp [Counted, valuesOf_concat, valueOf?_of_none h]

/-- The numbers that a line gives the device itself can be read. -/
def PortRead (line : String) : Prop :=
  ∀ value ∈ valueOf? "listen_port" line, (Decimal.word16? value).isSome = true

theorem wellFormed_concat :
    (∀ l ∈ lines ++ [line], WellFormed l) ↔ (∀ l ∈ lines, WellFormed l) ∧ WellFormed line := by
  rw [List.forall_mem_append, List.forall_mem_singleton]

theorem counted_of_concat (h : Counted (lines ++ [line])) : Counted lines := by
  intro counter hcounter value hvalue
  refine h counter hcounter value ?_
  rw [valuesOf_concat]
  exact List.mem_append_left _ hvalue

theorem readable_concat_opened {key : String} (h : opened? line = some key) :
    Readable (lines ++ [line]) ↔ Readable lines ∧ WellFormed line := by
  have hnew : Counted [] := by simp [Counted, valuesOf]
  constructor
  · rintro ⟨hentries, hport, hcounted⟩
    rw [ownLines_concat_opened h] at hport
    rw [peerSections_concat_opened h, List.forall_mem_append] at hcounted
    have hall := wellFormed_concat.mp hentries
    exact ⟨⟨hall.1, hport, hcounted.1⟩, hall.2⟩
  · rintro ⟨⟨hentries, hport, hcounted⟩, hline⟩
    refine ⟨wellFormed_concat.mpr ⟨hentries, hline⟩, ?_, ?_⟩
    · rwa [ownLines_concat_opened h]
    · rw [peerSections_concat_opened h, List.forall_mem_append]
      exact ⟨hcounted, by simpa using hnew⟩

theorem readable_concat_own (h : opened? line = none) (hnone : peerSections lines = []) :
    Readable (lines ++ [line]) ↔ Readable lines ∧ WellFormed line ∧ PortRead line := by
  have hports : (∀ value ∈ valuesOf "listen_port" (lines ++ [line]),
      (Decimal.word16? value).isSome = true) ↔
        (∀ value ∈ valuesOf "listen_port" lines, (Decimal.word16? value).isSome = true) ∧
          PortRead line := by
    rw [valuesOf_concat, List.forall_mem_append]
    simp [PortRead]
  constructor
  · rintro ⟨hentries, hport, hcounted⟩
    rw [ownLines_append hnone, ownLines_singleton h, hports] at hport
    have hall := wellFormed_concat.mp hentries
    refine ⟨⟨hall.1, ?_, ?_⟩, hall.2, hport.2⟩
    · rw [ownLines_eq_self hnone]
      exact hport.1
    · simp [hnone]
  · rintro ⟨⟨hentries, hport, hcounted⟩, hentry, hread⟩
    rw [ownLines_eq_self hnone] at hport
    refine ⟨wellFormed_concat.mpr ⟨hentries, hentry⟩, ?_, ?_⟩
    · rw [ownLines_append hnone, ownLines_singleton h]
      exact hports.mpr ⟨hport, hread⟩
    · simp [peerSections_append hnone, peerSections_singleton h]

theorem readable_concat_peer (h : opened? line = none) {before : List (String × List String)}
    {key : String} {last : List String} (hlast : peerSections lines = before ++ [(key, last)]) :
    Readable (lines ++ [line]) ↔ Readable lines ∧ WellFormed line ∧ Counted (last ++ [line]) := by
  have hsome : peerSections lines ≠ [] := by rw [hlast]; simp
  constructor
  · rintro ⟨hentries, hport, hcounted⟩
    rw [ownLines_append_of_sections hsome] at hport
    rw [peerSections_concat h hlast, List.forall_mem_append] at hcounted
    have hall := wellFormed_concat.mp hentries
    have hnew : Counted (last ++ [line]) := by simpa using hcounted.2
    refine ⟨⟨hall.1, hport, ?_⟩, hall.2, hnew⟩
    rw [hlast, List.forall_mem_append]
    exact ⟨hcounted.1, by simpa using counted_of_concat hnew⟩
  · rintro ⟨⟨hentries, hport, hcounted⟩, hentry, hnew⟩
    rw [hlast, List.forall_mem_append] at hcounted
    refine ⟨wellFormed_concat.mpr ⟨hentries, hentry⟩, ?_, ?_⟩
    · rwa [ownLines_append_of_sections hsome]
    · rw [peerSections_concat h hlast, List.forall_mem_append]
      exact ⟨hcounted.1, by simpa using hnew⟩

/-- The lines before readable ones are readable. -/
theorem readable_of_concat (h : Readable (lines ++ [line])) : Readable lines := by
  cases hopen : opened? line with
  | some key => exact ((readable_concat_opened hopen).mp h).1
  | none =>
      rcases peerSections_cases lines with hnone | ⟨before, key, last, hlast⟩
      · exact ((readable_concat_own hopen hnone).mp h).1
      · exact ((readable_concat_peer hopen hlast).mp h).1

/-! ## What one more line tells -/

theorem told_concat_opened {key : String} (h : opened? line = some key) (lines : List String) :
    DeviceState.told (lines ++ [line]) =
      { DeviceState.told lines with
        peers := (DeviceState.told lines).peers ++ [{ publicKey := key }] } := by
  simp only [DeviceState.told, ownLines_concat_opened h, peerSections_concat_opened h,
    List.map_append]
  rfl

theorem told_concat_own (h : opened? line = none) (hnone : peerSections lines = []) :
    DeviceState.told (lines ++ [line]) =
      { listenPort := lastNumber Decimal.word16? "listen_port" (lines ++ [line]) } := by
  rw [DeviceState.told, ownLines_append hnone, ownLines_singleton h, peerSections_append hnone,
    peerSections_singleton h]
  rfl

theorem told_own (hnone : peerSections lines = []) :
    DeviceState.told lines =
      { listenPort := lastNumber Decimal.word16? "listen_port" lines } := by
  rw [DeviceState.told, ownLines_eq_self hnone, hnone]
  rfl

theorem told_concat_peer (h : opened? line = none) {before : List (String × List String)}
    {key : String} {last : List String} (hlast : peerSections lines = before ++ [(key, last)]) :
    DeviceState.told (lines ++ [line]) =
      { DeviceState.told lines with
        peers := (DeviceState.told lines).peers.dropLast ++ [.told key (last ++ [line])] } := by
  have hsome : peerSections lines ≠ [] := by rw [hlast]; simp
  simp [DeviceState.told, ownLines_append_of_sections hsome, peerSections_concat h hlast, hlast]

theorem getLast?_told {before : List (String × List String)} {key : String} {last : List String}
    (hlast : peerSections lines = before ++ [(key, last)]) :
    (DeviceState.told lines).peers.getLast? = some (.told key last) := by
  simp [DeviceState.told, hlast]

/-- A blank line tells nothing. -/
theorem told_concat_blank (h : trim line = "") (hread : Readable lines) :
    Readable (lines ++ [line]) ∧ DeviceState.told (lines ++ [line]) = .told lines := by
  have hentry : named? line = none := named?_of_blank h
  have hline (name : String) : valueOf? name line = none := valueOf?_of_none hentry name
  have hopen : opened? line = none := hline "public_key"
  have hwell : WellFormed line := fun hne => absurd h hne
  rcases peerSections_cases lines with hnone | ⟨before, key, last, hlast⟩
  · refine ⟨(readable_concat_own hopen hnone).mpr ⟨hread, hwell, by simp [PortRead, hline]⟩, ?_⟩
    rw [told_concat_own hopen hnone, told_own hnone, lastNumber_concat, hline]
  · have hcounted : Counted last := hread.counted (key, last) (by simp [hlast])
    refine ⟨(readable_concat_peer hopen hlast).mpr
      ⟨hread, hwell, (counted_concat_of_none hentry).mpr hcounted⟩, ?_⟩
    have hsame : PeerState.told key (last ++ [line]) = .told key last := by
      simp only [PeerState.told, valuesOf_concat, lastNumber_concat, hline, Option.toList_none,
        List.append_nil]
    rw [told_concat_peer hopen hlast, hsame]
    simp [DeviceState.told, hlast]

/-- What a line with a name and a value does to the state it does to the sections, unless it holds a
number that cannot be read. -/
theorem set_told_lines (h : named? line = some (name, value)) (hread : Readable lines) :
    (DeviceState.told lines).set name value = .ok state ↔
      Readable (lines ++ [line]) ∧ state = .told (lines ++ [line]) := by
  have hwell : WellFormed line := fun _ => isSome_named?.mp (by rw [h]; rfl)
  unfold DeviceState.set
  split
  · next hname =>
      have hopen : opened? line = some value := (opened?_eq_some_iff h).mpr ⟨hname, rfl⟩
      have hall : Readable (lines ++ [line]) := (readable_concat_opened hopen).mpr ⟨hread, hwell⟩
      simp [hall, told_concat_opened hopen, eq_comm]
  · next hname =>
      have hopen : opened? line = none := by simp [opened?, valueOf?_eq h, hname]
      rcases peerSections_cases lines with hnone | ⟨before, key, last, hlast⟩
      · rw [readable_concat_own hopen hnone, told_concat_own hopen hnone, told_own hnone,
          lastNumber_concat, PortRead, valueOf?_eq h]
        simp only [List.getLast?_nil]
        split
        · next hport =>
            rw [map_numberOf_eq_ok_iff 0]
            cases hvalue : Decimal.word16? value <;> simp [hread, hwell, hvalue]
        · next hport => simpa [hport, hread, hwell] using eq_comm
      · rw [getLast?_told hlast, readable_concat_peer hopen hlast, told_concat_peer hopen hlast,
          counted_concat h]
        have hcounted : Counted last := hread.counted (key, last) (by simp [hlast])
        simp only [hread, hwell, hcounted, true_and]
        constructor
        · intro hset
          cases hpeer : (PeerState.told key last).set name value with
          | error fault => simp [hpeer, Except.map] at hset
          | ok peer =>
              obtain ⟨hnumbers, rfl⟩ := (set_told h).mp hpeer
              rw [hpeer, Except.map, Except.ok.injEq] at hset
              exact ⟨hnumbers, hset.symm⟩
        · rintro ⟨hnumbers, rfl⟩
          rw [(set_told h).mpr ⟨hnumbers, rfl⟩]
          rfl

/-- **Each line does to the state what it does to the sections.** -/
theorem add_told (hread : Readable lines) :
    (DeviceState.told lines).add line = .ok state ↔
      Readable (lines ++ [line]) ∧ state = .told (lines ++ [line]) := by
  cases hentry : named? line with
  | some entry =>
      rw [add_of_named? hentry]
      exact set_told_lines hentry hread
  | none =>
      by_cases hblank : trim line = ""
      · obtain ⟨hall, htold⟩ := told_concat_blank hblank hread
        simp [add_of_blank hblank, hall, htold, eq_comm]
      · rw [add_of_none hblank hentry]
        refine ⟨nofun, fun ⟨hall, _⟩ => ?_⟩
        have hwell : '=' ∈ (trim line).toList := hall.entries line (by simp) hblank
        rw [← isSome_named?, hentry] at hwell
        cases hwell

theorem ofLines_concat (lines : List String) (line : String) :
    DeviceState.ofLines (lines ++ [line]) = (DeviceState.ofLines lines).bind (·.add line) := by
  calc DeviceState.ofLines (lines ++ [line])
      = DeviceState.ofLines lines >>= fun state => [line].foldlM DeviceState.add state := by
        rw [DeviceState.ofLines, List.foldlM_append]
        rfl
    _ = DeviceState.ofLines lines >>= (·.add line) := by
        simp only [List.foldlM_cons, List.foldlM_nil, bind_pure]

theorem readable_nil : Readable [] :=
  ⟨by simp, by simp [ownLines, valuesOf], by simp [peerSections_nil]⟩

/-- **Lines are read as what their sections tell**, and lines that cannot be read are refused. -/
theorem ofLines_eq_ok_iff :
    DeviceState.ofLines lines = .ok state ↔ Readable lines ∧ state = .told lines := by
  induction lines using List.reverseRecOn generalizing state with
  | nil =>
      have hstart : DeviceState.ofLines [] = .ok (.told []) := rfl
      rw [hstart, Except.ok.injEq]
      exact ⟨fun h => ⟨readable_nil, h.symm⟩, fun h => h.2.symm⟩
  | append_singleton lines line ih =>
      rw [ofLines_concat]
      cases hbefore : DeviceState.ofLines lines with
      | ok before =>
          obtain ⟨hread, rfl⟩ := ih.mp hbefore
          rw [Except.bind]
          exact add_told hread
      | error fault =>
          refine ⟨nofun, fun h => ?_⟩
          have hok := ih.mpr ⟨readable_of_concat h.1, rfl⟩
          rw [hbefore] at hok
          cases hok

/-! ## Lines that say nothing -/

/-- The names that mean something in some place. -/
def knownNames : List String :=
  "public_key" :: "listen_port" :: "endpoint" :: "allowed_ip" :: counters.map (·.1)

/-- A line that is blank, or whose name means nothing in any place. -/
def Idle (line : String) : Prop :=
  trim line = "" ∨ ∃ name value, named? line = some (name, value) ∧ name ∉ knownNames

theorem set_unknown (h : name ∉ knownNames) (peer : PeerState) : peer.set name value = .ok peer := by
  simp only [knownNames, counters, List.map_cons, List.map_nil, List.mem_cons, List.not_mem_nil,
    or_false, not_or] at h
  obtain ⟨-, -, hendpoint, hallowed, hreceived, hsent, hseconds, hnanos⟩ := h
  unfold PeerState.set
  split <;> first | contradiction | rfl

theorem add_idle (h : Idle line) (state : DeviceState) : state.add line = .ok state := by
  rcases h with hblank | ⟨name, value, hentry, hname⟩
  · exact add_of_blank hblank state
  · rw [add_of_named? hentry, DeviceState.set]
    have hkey : name ≠ "public_key" := fun heq => hname (by simp [heq, knownNames])
    have hport : name ≠ "listen_port" := fun heq => hname (by simp [heq, knownNames])
    rw [if_neg hkey, if_neg hport]
    cases hlast : state.peers.getLast? with
    | none => rfl
    | some peer =>
        have hpeers : state.peers.dropLast ++ [peer] = state.peers :=
          List.dropLast_append_getLast? peer hlast
        simp only [set_unknown hname, Except.map, hpeers]

/-- **A line that says nothing changes nothing**, wherever it stands. -/
theorem ofLines_insert (h : Idle line) (before after : List String) :
    DeviceState.ofLines (before ++ line :: after) = DeviceState.ofLines (before ++ after) := by
  rw [DeviceState.ofLines, DeviceState.ofLines, List.foldlM_append, List.foldlM_append]
  refine bind_congr fun state => ?_
  rw [List.foldlM_cons, add_idle h]
  rfl

end OverlayVpn.Engine
