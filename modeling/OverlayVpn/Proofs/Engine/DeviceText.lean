import OverlayVpn.Proofs.Engine.DeviceState

set_option autoImplicit false

/-! # A device's state is read back

A state is written as the engine would tell it, one line for each thing that is known
(`DeviceState.text`). The lines of that text tell the state that was written
(`ofLines_text`): each peer's lines stand in its own section, and each line gives its name the value
that was written. -/

namespace OverlayVpn.Engine

open Text

/-! ## Writing -/

/-- A line `name=value`. -/
def entryLine (entry : String × String) : String := entry.1 ++ "=" ++ entry.2

/-- What is told of a peer after its key. -/
def PeerState.entries (peer : PeerState) : List (String × String) :=
  peer.endpoint.toList.map (("endpoint", ·)) ++ peer.allowedIps.map (("allowed_ip", ·)) ++
    [("rx_bytes", Decimal.render peer.received.toNat),
      ("tx_bytes", Decimal.render peer.sent.toNat),
      ("last_handshake_time_sec", Decimal.renderInt peer.handshakeSeconds),
      ("last_handshake_time_nsec", Decimal.render peer.handshakeNanos.toNat)]

/-- The line that opens a peer's section. -/
def PeerState.keyLine (peer : PeerState) : String := entryLine ("public_key", peer.publicKey)

/-- The lines of a peer's section. -/
def PeerState.lines (peer : PeerState) : List String :=
  peer.keyLine :: peer.entries.map entryLine

/-- What is told of the device's port, if it is known. -/
def portEntries (port : Option UInt16) : List (String × String) :=
  port.toList.map fun port => ("listen_port", Decimal.render port.toNat)

/-- The lines that tell a state. -/
def DeviceState.lines (state : DeviceState) : List String :=
  (portEntries state.listenPort).map entryLine ++ state.peers.flatMap PeerState.lines

/-- The text that tells a state. -/
def DeviceState.text (state : DeviceState) : String :=
  String.join (state.lines.map (· ++ "\n"))

/-- Whether a text can be a value on a line: it holds no line break, and has no blank at either
end. -/
def Fits (value : String) : Prop := '\n' ∉ value.toList ∧ trim value = value

/-- Whether a peer's texts can be values on lines, and its time is in the engine's range. -/
structure PeerState.Writable (peer : PeerState) : Prop where
  publicKey : Fits peer.publicKey
  endpoint : ∀ endpoint ∈ peer.endpoint, Fits endpoint
  allowedIps : ∀ address ∈ peer.allowedIps, Fits address
  early : -(Decimal.signedBound : Int) ≤ peer.handshakeSeconds
  late : peer.handshakeSeconds < Decimal.signedBound

/-! ## One line -/

/-- A name starts with a letter and holds no separator. -/
def IsName (name : String) : Prop :=
  '=' ∉ name.toList ∧ '\n' ∉ name.toList ∧
    ∃ c rest, name.toList = c :: rest ∧ isBlank c = false

theorem getLast?_of_fits {value : String} (h : Fits value) {c : Char}
    (hc : value.toList.getLast? = some c) : isBlank c = false := by
  have htrimmed : trimmed value.toList = value.toList := by
    have := congrArg String.toList h.2
    rwa [trim, String.toList_ofList] at this
  rw [← htrimmed] at hc
  exact getLast?_trimmed hc

theorem getLast?_entryLine {entry : String × String} (h : Fits entry.2) {c : Char}
    (hc : (entryLine entry).toList.getLast? = some c) : isBlank c = false := by
  have hlist : (entryLine entry).toList = entry.1.toList ++ '=' :: entry.2.toList := by
    simp [entryLine]
  rw [hlist, List.getLast?_append, List.getLast?_cons] at hc
  cases hlast : entry.2.toList.getLast? with
  | none =>
      rw [hlast] at hc
      obtain rfl : '=' = c := by simpa using hc
      rfl
  | some last =>
      rw [hlast] at hc
      obtain rfl : last = c := by simpa using hc
      exact getLast?_of_fits h hlast

/-- **A line gives its name its value.** -/
theorem named?_entryLine {entry : String × String} (hname : IsName entry.1) (h : Fits entry.2) :
    named? (entryLine entry) = some entry := by
  have hlist : (entryLine entry).toList = entry.1.toList ++ '=' :: entry.2.toList := by
    simp [entryLine]
  obtain ⟨hsep, -, first, rest, hfirst, hblank⟩ := hname
  have htrim : trim (entryLine entry) = entryLine entry := by
    have htrimmed : trimmed (entryLine entry).toList = (entryLine entry).toList := by
      refine trimmed_eq_self (fun c hc => ?_) fun c hc => getLast?_entryLine h hc
      rw [hlist, hfirst, List.cons_append, List.head?_cons, Option.some.injEq] at hc
      exact hc ▸ hblank
    rw [trim, htrimmed, String.ofList_toList]
  rw [named?, htrim, cut, hlist, cutAt_append hsep]
  simp

theorem valueOf?_entryLine {entry : String × String} (hname : IsName entry.1) (h : Fits entry.2)
    (name : String) :
    valueOf? name (entryLine entry) = if entry.1 = name then some entry.2 else none :=
  valueOf?_eq (named?_entryLine hname h) name

/-- The values that written lines give a name are those that were written for it. -/
theorem valuesOf_entryLine {entries : List (String × String)}
    (h : ∀ entry ∈ entries, IsName entry.1 ∧ Fits entry.2) (name : String) :
    valuesOf name (entries.map entryLine) =
      (entries.filter fun entry => entry.1 = name).map (·.2) := by
  induction entries with
  | nil => rfl
  | cons entry entries ih =>
      obtain ⟨⟨hname, hfits⟩, hrest⟩ := List.forall_mem_cons.mp h
      have ih' := ih hrest
      rw [valuesOf] at ih'
      rw [List.map_cons, valuesOf, List.filterMap_cons, valueOf?_entryLine hname hfits, ih']
      by_cases heq : entry.1 = name <;> simp [heq]

/-! ## One peer -/

theorem fits_of_isDigit {cs : List Char} (h : ∀ c ∈ cs, c.isDigit = true) :
    Fits (String.ofList cs) := by
  refine ⟨?_, ?_⟩
  · rw [String.toList_ofList]
    exact not_mem_of_isDigit h rfl
  · rw [trim, String.toList_ofList, trimmed_of_forall fun c hc => isBlank_of_isDigit (h c hc)]

theorem fits_render (n : Nat) : Fits (Decimal.render n) :=
  fits_of_isDigit fun _ => Decimal.isDigit_of_mem_digits

theorem fits_renderInt (n : Int) : Fits (Decimal.renderInt n) := by
  have hlist := Decimal.toList_renderInt n
  have hall : ∀ c ∈ (Decimal.renderInt n).toList, c = '-' ∨ c.isDigit = true := by
    intro c hc
    rw [hlist] at hc
    split at hc
    · exact (List.mem_cons.mp hc).imp_right Decimal.isDigit_of_mem_digits
    · exact Or.inr (Decimal.isDigit_of_mem_digits hc)
  refine ⟨fun hmem => ?_, ?_⟩
  · rcases hall _ hmem with heq | hdigit
    · cases heq
    · cases hdigit
  · rw [trim, trimmed_of_forall, String.ofList_toList]
    intro c hc
    rcases hall c hc with rfl | hdigit
    · rfl
    · exact isBlank_of_isDigit hdigit

/-- The names of the lines that are written. -/
theorem isName_known : ∀ name ∈ knownNames, IsName name := by
  simp only [knownNames, counters, List.map_cons, List.map_nil, List.forall_mem_cons]
  refine ⟨?_, ?_, ?_, ?_, ?_, ?_, ?_, ?_, by simp⟩ <;>
    exact ⟨by decide, by decide, _, _, rfl, rfl⟩

/-- What is told of a peer can stand on lines. -/
theorem PeerState.Writable.entries {peer : PeerState} (h : peer.Writable) :
    ∀ entry ∈ peer.entries, IsName entry.1 ∧ Fits entry.2 := by
  intro entry hentry
  simp only [PeerState.entries, List.mem_append, List.mem_map, Option.mem_toList, List.mem_cons,
    List.not_mem_nil, or_false] at hentry
  rcases hentry with (⟨endpoint, hendpoint, rfl⟩ | ⟨address, haddress, rfl⟩) | rfl | rfl | rfl | rfl
  · exact ⟨isName_known _ (by simp [knownNames]), h.endpoint endpoint hendpoint⟩
  · exact ⟨isName_known _ (by simp [knownNames]), h.allowedIps address haddress⟩
  · exact ⟨isName_known _ (by simp [knownNames, counters]), fits_render _⟩
  · exact ⟨isName_known _ (by simp [knownNames, counters]), fits_render _⟩
  · exact ⟨isName_known _ (by simp [knownNames, counters]), fits_renderInt _⟩
  · exact ⟨isName_known _ (by simp [knownNames, counters]), fits_render _⟩

theorem signed64?_renderInt {n : Int} (hlow : -(Decimal.signedBound : Int) ≤ n)
    (hhigh : n < Decimal.signedBound) : Decimal.signed64? (Decimal.renderInt n) = some n :=
  Decimal.integer?_renderInt hlow hhigh

/-- **The section of a peer tells the peer.** -/
theorem told_entries {peer : PeerState} (h : peer.Writable) :
    PeerState.told peer.publicKey (peer.entries.map entryLine) = peer := by
  have hseconds := signed64?_renderInt h.early h.late
  obtain ⟨key, endpoint, allowedIps, received, sent, seconds, nanos⟩ := peer
  simp only [PeerState.told, lastNumber, valuesOf_entryLine h.entries]
  cases endpoint <;>
    simp [PeerState.entries, List.filter_map, Function.comp_def, Decimal.word32?_render,
      Decimal.word64?_render, hseconds]

/-- All numbers in a written section can be read. -/
theorem counted_entries {peer : PeerState} (h : peer.Writable) :
    Counted (peer.entries.map entryLine) := by
  have hseconds := signed64?_renderInt h.early h.late
  obtain ⟨key, endpoint, allowedIps, received, sent, seconds, nanos⟩ := peer
  simp only [Counted, valuesOf_entryLine h.entries]
  cases endpoint <;>
    simp [counters, PeerState.entries, List.filter_map, Function.comp_def, Decimal.word32?_render,
      Decimal.word64?_render, hseconds]

/-! ## All peers -/

theorem named?_keyLine {peer : PeerState} (h : peer.Writable) :
    named? peer.keyLine = some ("public_key", peer.publicKey) :=
  named?_entryLine (isName_known _ (by simp [knownNames])) h.publicKey

theorem peerSections_entries {peer : PeerState} (h : peer.Writable) :
    peerSections (peer.entries.map entryLine) = [] := by
  refine peerSections_eq_nil_iff.mpr fun line hline => ?_
  obtain ⟨entry, hentry, rfl⟩ := List.mem_map.mp hline
  obtain ⟨hname, hfits⟩ := h.entries entry hentry
  rw [opened?, valueOf?_entryLine hname hfits, if_neg]
  rintro hkey
  simp only [PeerState.entries, List.mem_append, List.mem_map, Option.mem_toList, List.mem_cons,
    List.not_mem_nil, or_false] at hentry
  rcases hentry with (⟨_, _, rfl⟩ | ⟨_, _, rfl⟩) | rfl | rfl | rfl | rfl <;> simp at hkey

/-- **Each peer's lines stand in its own section.** -/
theorem peerSections_lines {peers : List PeerState} (h : ∀ peer ∈ peers, peer.Writable) :
    ownLines (peers.flatMap PeerState.lines) = [] ∧
      peerSections (peers.flatMap PeerState.lines) =
        peers.map fun peer => (peer.publicKey, peer.entries.map entryLine) :=
  peerSections_flatMap
    (fun peer hpeer => (opened?_eq_some_iff (named?_keyLine (h peer hpeer))).mpr ⟨rfl, rfl⟩)
    (fun peer hpeer => peerSections_entries (h peer hpeer))

/-! ## The whole state -/

/-- Whether all peers can be told on lines. -/
def DeviceState.Writable (state : DeviceState) : Prop := ∀ peer ∈ state.peers, peer.Writable

theorem fits_portEntries {port : Option UInt16} :
    ∀ entry ∈ portEntries port, IsName entry.1 ∧ Fits entry.2 := by
  intro entry hentry
  obtain ⟨n, -, rfl⟩ := List.mem_map.mp hentry
  exact ⟨isName_known _ (by simp [knownNames]), fits_render _⟩

theorem valuesOf_portEntries (port : Option UInt16) :
    valuesOf "listen_port" ((portEntries port).map entryLine) =
      port.toList.map fun port => Decimal.render port.toNat := by
  rw [valuesOf_entryLine fits_portEntries]
  cases port <;> simp [portEntries]

theorem peerSections_portEntries (port : Option UInt16) :
    peerSections ((portEntries port).map entryLine) = [] := by
  refine peerSections_eq_nil_iff.mpr fun line hline => ?_
  obtain ⟨entry, hentry, rfl⟩ := List.mem_map.mp hline
  obtain ⟨hname, hfits⟩ := fits_portEntries entry hentry
  obtain ⟨n, -, rfl⟩ := List.mem_map.mp hentry
  rw [opened?, valueOf?_entryLine hname hfits, if_neg (by simp)]

variable {state : DeviceState}

theorem ownLines_state (h : state.Writable) : ownLines state.lines =
    (portEntries state.listenPort).map entryLine := by
  rw [DeviceState.lines, ownLines_append (peerSections_portEntries _), (peerSections_lines h).1,
    List.append_nil]

theorem peerSections_state (h : state.Writable) :
    peerSections state.lines =
      state.peers.map fun peer => (peer.publicKey, peer.entries.map entryLine) := by
  rw [DeviceState.lines, peerSections_append (peerSections_portEntries _),
    (peerSections_lines h).2]

/-- A line of a state is a name and a value that fits. -/
theorem exists_entry_of_mem_lines (h : state.Writable) {line : String} (hline : line ∈ state.lines) :
    ∃ entry, IsName entry.1 ∧ Fits entry.2 ∧ line = entryLine entry := by
  rw [DeviceState.lines, List.mem_append] at hline
  rcases hline with hport | hpeer
  · obtain ⟨entry, hentry, rfl⟩ := List.mem_map.mp hport
    obtain ⟨hname, hfits⟩ := fits_portEntries entry hentry
    exact ⟨entry, hname, hfits, rfl⟩
  · obtain ⟨peer, hmem, hline⟩ := List.mem_flatMap.mp hpeer
    rcases List.mem_cons.mp hline with rfl | hline
    · exact ⟨("public_key", peer.publicKey), isName_known _ (by simp [knownNames]),
        (h peer hmem).publicKey, rfl⟩
    · obtain ⟨entry, hentry, rfl⟩ := List.mem_map.mp hline
      obtain ⟨hname, hfits⟩ := (h peer hmem).entries entry hentry
      exact ⟨entry, hname, hfits, rfl⟩

theorem readable_lines (h : state.Writable) : Readable state.lines := by
  refine ⟨fun line hline _ => ?_, ?_, ?_⟩
  · obtain ⟨entry, hname, hfits, rfl⟩ := exists_entry_of_mem_lines h hline
    exact isSome_named?.mp (by rw [named?_entryLine hname hfits]; rfl)
  · rw [ownLines_state h, valuesOf_portEntries]
    intro value hvalue
    obtain ⟨port, -, rfl⟩ := List.mem_map.mp hvalue
    rw [Decimal.word16?_render]
    rfl
  · rw [peerSections_state h]
    intro s hs
    obtain ⟨peer, hpeer, rfl⟩ := List.mem_map.mp hs
    exact counted_entries (h peer hpeer)

theorem told_lines (h : state.Writable) : DeviceState.told state.lines = state := by
  have hpeers : state.peers.map (fun peer => PeerState.told peer.publicKey
      (peer.entries.map entryLine)) = state.peers :=
    (List.map_congr_left fun peer hpeer => told_entries (h peer hpeer)).trans (List.map_id' _)
  have hport : lastNumber Decimal.word16? "listen_port"
      ((portEntries state.listenPort).map entryLine) = state.listenPort := by
    rw [lastNumber, valuesOf_portEntries]
    cases state.listenPort with
    | none => rfl
    | some port => simp [Decimal.word16?_render]
  rw [DeviceState.told, ownLines_state h, hport, peerSections_state h, List.map_map]
  simp only [Function.comp_def, hpeers]

/-- A written text has the lines that were written. -/
theorem lines_text (h : state.Writable) : Text.lines state.text = state.lines := by
  have hlist : state.text.toList = (state.lines.map String.toList).flatMap (· ++ ['\n']) := by
    simp [DeviceState.text, List.flatMap_map]
  have hbreak : ∀ l ∈ state.lines.map String.toList, '\n' ∉ l := by
    intro l hl
    obtain ⟨line, hline, rfl⟩ := List.mem_map.mp hl
    obtain ⟨entry, hname, hfits, rfl⟩ := exists_entry_of_mem_lines h hline
    simp [entryLine, hname.2.1, hfits.1]
  have hreturn : ∀ l ∈ state.lines.map String.toList, l.getLast? ≠ some '\r' := by
    intro l hl hlast
    obtain ⟨line, hline, rfl⟩ := List.mem_map.mp hl
    obtain ⟨entry, -, hfits, rfl⟩ := exists_entry_of_mem_lines h hline
    cases getLast?_entryLine hfits hlast
  rw [Text.lines, hlist, linesOf_ended hbreak hreturn, List.map_map]
  simp [Function.comp_def]

/-- **A state is read back from its text.** -/
theorem ofLines_text (h : state.Writable) :
    DeviceState.ofLines (Text.lines state.text) = .ok state := by
  rw [lines_text h]
  exact ofLines_eq_ok_iff.mpr ⟨readable_lines h, (told_lines h).symm⟩

/-! ## All lines -/

/-- **A device's lines are read exactly.** They are read just if each is blank or has a name and a
value and the numbers can be read where they count. Then there is one peer for each line with a
public key, in order, and each has what the lines of its own section tell, as the device has what
the lines before all sections tell. A line that is blank or has an unknown name may stand anywhere,
and a state is read back from its text. -/
theorem device_lines_read_exactly :
    (∀ lines, (∃ state, DeviceState.ofLines lines = .ok state) ↔ Readable lines) ∧
      (∀ lines state, DeviceState.ofLines lines = .ok state →
        state.peers.map (·.publicKey) = valuesOf "public_key" lines ∧
          state = DeviceState.told lines) ∧
      (∀ before line after, Idle line →
        DeviceState.ofLines (before ++ line :: after) = DeviceState.ofLines (before ++ after)) ∧
      ∀ state : DeviceState, state.Writable →
        DeviceState.ofLines (Text.lines state.text) = .ok state := by
  refine ⟨fun lines => ?_, fun lines state hstate => ?_, fun before line after hidle => ?_,
    fun state hstate => ofLines_text hstate⟩
  · constructor
    · rintro ⟨state, hstate⟩
      exact (ofLines_eq_ok_iff.mp hstate).1
    · intro hread
      exact ⟨.told lines, ofLines_eq_ok_iff.mpr ⟨hread, rfl⟩⟩
  · obtain ⟨-, rfl⟩ := ofLines_eq_ok_iff.mp hstate
    refine ⟨?_, rfl⟩
    rw [← keys_peerSections, DeviceState.told, List.map_map]
    rfl
  · exact ofLines_insert hidle before after

/-- The state of a device with two peers, one of which has sent something. -/
def pairState : DeviceState where
  listenPort := some 51820
  peers :=
    [{ publicKey := "aa", endpoint := some "198.51.100.2:4000", allowedIps := ["10.0.0.2/32"]
       received := 100, handshakeSeconds := 1700000000, handshakeNanos := 5 },
      { publicKey := "bb" }]

theorem pairState_writable : pairState.Writable := by
  have hkeys : Fits "aa" ∧ Fits "bb" := by
    constructor <;> constructor <;> decide +kernel
  have haddresses : Fits "198.51.100.2:4000" ∧ Fits "10.0.0.2/32" := by
    constructor <;> constructor <;> decide +kernel
  refine List.forall_mem_cons.mpr ⟨?_, List.forall_mem_singleton.mpr ?_⟩
  · exact ⟨hkeys.1, by simp [haddresses.1], by simp [haddresses.2], by decide, by decide⟩
  · exact ⟨hkeys.2, by simp, by simp, by decide, by decide⟩

theorem pairState_lines_read_exactly :
    ((∃ state, DeviceState.ofLines pairState.lines = .ok state) ∧ Readable pairState.lines) ∧
      (pairState.peers.map (·.publicKey) = valuesOf "public_key" pairState.lines ∧
        pairState = DeviceState.told pairState.lines) ∧
      (Idle " fwmark=0" ∧
        DeviceState.ofLines (["public_key=aa"] ++ " fwmark=0" :: ["tx_bytes=7"]) =
          DeviceState.ofLines (["public_key=aa"] ++ ["tx_bytes=7"])) ∧
      pairState.Writable ∧ DeviceState.ofLines (Text.lines pairState.text) = .ok pairState := by
  obtain ⟨hiff, hread, hinsert, htext⟩ := device_lines_read_exactly
  have hlines : DeviceState.ofLines pairState.lines = .ok pairState := by decide +kernel
  have hidle : Idle " fwmark=0" := Or.inr ⟨"fwmark", "0", by decide +kernel, by decide +kernel⟩
  exact ⟨⟨⟨pairState, hlines⟩, (hiff _).mp ⟨pairState, hlines⟩⟩, hread _ _ hlines,
    ⟨hidle, hinsert _ _ _ hidle⟩, pairState_writable, htext _ pairState_writable⟩

end OverlayVpn.Engine
