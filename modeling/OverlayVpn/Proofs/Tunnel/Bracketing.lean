import OverlayVpn.Proofs.Engine.Journal
import OverlayVpn.Proofs.Tunnel.Calls
import OverlayVpn.Rehearsal.Stage

set_option autoImplicit false

/-! # Every device is given up once

The backend is run on an engine that numbers its devices and keeps a journal, one page for each
call. A page tells of one of five things (`Noted`): of requests alone, of a device that is taken
up, of one that is given up because it could not be configured, of one that is stopped, or of one
that is abandoned. Over all pages, the stored device is the only one alive, and every other one
that was made was given up by exactly one call (`Settled`). -/

namespace OverlayVpn

namespace EngineTunnel

open Engine

variable {ω δ : Type}

/-! ## Calls on pages of a journal -/

/-- A call with its reply and with what it does to the engine. -/
structure Entry where
  call : Call
  reply : Reply
  acts : List Act

/-- Answers a call on a fresh page of the journal. -/
def note (e : Engine ω δ) (t : EngineTunnel (Nat × δ) × Diary ω) (call : Call) :
    Entry × EngineTunnel (Nat × δ) × Diary ω :=
  let s := perform e.journaled (t.1, { t.2 with acts := [] }) call
  (⟨call, s.1, s.2.2.acts⟩, s.2)

/-- Answers calls one after another, each on a page of its own. -/
def record (e : Engine ω δ) (t : EngineTunnel (Nat × δ) × Diary ω) :
    List Call → List Entry × EngineTunnel (Nat × δ) × Diary ω
  | [] => ([], t)
  | call :: calls =>
    ((note e t call).1 :: (record e (note e t call).2 calls).1,
      (record e (note e t call).2 calls).2)

/-- The states of a backend with a journal and of the one without. -/
def Unnoticed : EngineTunnel (Nat × δ) × Diary ω → EngineTunnel δ × ω → Prop :=
  Related (fun x w => x.world = w) fun numbered device => numbered.2 = device

/-- All that is done to the engine. -/
def journal (entries : List Entry) : List Act := entries.flatMap (·.acts)

/-- A device is alive: it was made, and not discarded. -/
def Alive (acts : List Act) (n : Nat) : Prop := .created n ∈ acts ∧ .discarded n ∉ acts

instance (acts : List Act) (n : Nat) : Decidable (Alive acts n) := inferInstanceAs (Decidable (_ ∧ _))

/-- The calls that do something to give a device up, each with what it does for that. -/
def releases (n : Nat) (entries : List Entry) : List Entry :=
  (entries.map fun entry => { entry with acts := entry.acts.filter (·.givesUp n) }).filter
    (! ·.acts.isEmpty)

/-- How a device is given up. Stopping and a failed start close it, delete its interface however the
closing went, and discard it; an abort does no more than discard it. -/
inductive GivenUp (n : Nat) : List Entry → Prop where
  | stopped (closing : Closing) (gone : Bool) :
      GivenUp n [⟨.stop, .stopped (some (.ok ())),
        [.closed n closing, .unlinked n gone, .discarded n]⟩]
  | undone (config : TunnelSettings) (fault : BackendFault) (closing : Closing) (gone : Bool) :
      GivenUp n [⟨.start config, .done (.error fault),
        [.closed n closing, .unlinked n gone, .discarded n]⟩]
  | abandoned : GivenUp n [⟨.abort, .aborted, [.discarded n]⟩]

theorem record_concat (e : Engine ω δ) (t : EngineTunnel (Nat × δ) × Diary ω) (calls : List Call)
    (call : Call) :
    record e t (calls ++ [call]) =
      ((record e t calls).1 ++ [(note e (record e t calls).2 call).1],
        (note e (record e t calls).2 call).2) := by
  induction calls generalizing t with
  | nil => simp only [List.nil_append, record]
  | cons first calls ih => simp only [List.cons_append, record, ih]

theorem journal_concat (entries : List Entry) (entry : Entry) :
    journal (entries ++ [entry]) = journal entries ++ entry.acts := by
  simp [journal]

theorem releases_concat (n : Nat) (entries : List Entry) (entry : Entry) :
    releases n (entries ++ [entry]) = releases n entries ++ releases n [entry] := by
  simp [releases]

/-- A call that does nothing to give the device up. -/
theorem releases_of_filter {n : Nat} {call : Call} {reply : Reply} {acts : List Act}
    (h : acts.filter (·.givesUp n) = []) : releases n [⟨call, reply, acts⟩] = [] := by
  simp [releases, h]

/-- The calls that give a device up do all that is done for that. -/
theorem mem_journal_iff {n : Nat} {entries : List Entry} {act : Act} (h : act.givesUp n = true) :
    act ∈ journal entries ↔ ∃ entry ∈ releases n entries, act ∈ entry.acts := by
  simp only [journal, List.mem_flatMap, releases, List.mem_filter, List.mem_map]
  constructor
  · rintro ⟨entry, hentry, hact⟩
    have hmem : act ∈ entry.acts.filter (·.givesUp n) := List.mem_filter.mpr ⟨hact, h⟩
    refine ⟨_, ⟨⟨entry, hentry, rfl⟩, ?_⟩, hmem⟩
    simpa using List.ne_nil_of_mem hmem
  · rintro ⟨_, ⟨⟨entry, hentry, rfl⟩, -⟩, hact⟩
    exact ⟨entry, hentry, (List.mem_filter.mp hact).1⟩

/-! ## What a call can do -/

/-- What a call does to the engine, with the number of the device that is stored and how many have
been made, before and after. -/
inductive Noted (device : Option Nat) (made : Nat) : Entry → Option Nat → Nat → Prop where
  | requests {call : Call} {reply : Reply} {acts : List Act} (h : ∀ act ∈ acts, act.IsRequest) :
      Noted device made ⟨call, reply, acts⟩ device made
  | started {call : Call} {reply : Reply} {acts : List Act} (hnone : device = none)
      (h : ∀ act ∈ acts, act.IsRequest) :
      Noted device made ⟨call, reply, .created made :: acts⟩ (some made) (made + 1)
  | undone {config : TunnelSettings} {fault : BackendFault} {acts : List Act} {closing : Closing}
      {gone : Bool} (hnone : device = none) (h : ∀ act ∈ acts, act.IsRequest) :
      Noted device made
        ⟨.start config, .done (.error fault),
          .created made :: acts ++ [.closed made closing, .unlinked made gone, .discarded made]⟩
        none (made + 1)
  | stopped {n : Nat} {closing : Closing} {gone : Bool} (hsome : device = some n) :
      Noted device made
        ⟨.stop, .stopped (some (.ok ())), [.closed n closing, .unlinked n gone, .discarded n]⟩
        none made
  | abandoned {n : Nat} (hsome : device = some n) :
      Noted device made ⟨.abort, .aborted, [.discarded n]⟩ none made

section

variable (e : Engine ω δ) (n : Nat) (device : δ) (x : Diary ω)

/-- Configuring a device makes requests of it. -/
theorem configure_journaled (key : Key) (config : TunnelSettings) :
    ∃ w acts, (∀ act ∈ acts, Act.IsRequest act) ∧
      (configure e.journaled (n, device) key config x).2 = ⟨w, x.made, x.acts ++ acts⟩ := by
  unfold configure
  cases hset : e.set device (body [.privateKey key, .listenPort config.listenPort]) x.world with
  | mk result w =>
      simp only [journaled, noting, hset]
      cases result with
      | ok done =>
          let activated := e.activate device config.serverCidr w
          refine ⟨activated.2, [.set n (body [.privateKey key, .listenPort config.listenPort]) true,
            .activated n activated.1.isOk], ?_, ?_⟩
          · simp only [List.forall_mem_cons, List.not_mem_nil, false_implies, implies_true, and_true]
            exact ⟨Act.isRequest_set _ _ _, Act.isRequest_activated _ _⟩
          · simp only [List.append_assoc]
            rfl
      | error fault =>
          refine ⟨w, [.set n (body [.privateKey key, .listenPort config.listenPort]) false], ?_, rfl⟩
          rw [List.forall_mem_singleton]
          exact Act.isRequest_set _ _ _

/-- Dismantling a device closes it, deletes its interface and discards it. -/
theorem dismantle_journaled (hclose : ∀ device w, (e.close device none w).1 ≠ .cutOff) :
    ∃ w closing gone, dismantle e.journaled (n, device) none x =
      (some (), ⟨w, x.made, x.acts ++ [.closed n closing, .unlinked n gone, .discarded n]⟩) := by
  have hnot := hclose device x.world
  unfold dismantle
  cases hclosed : e.close device none x.world with
  | mk closing w =>
      rw [hclosed] at hnot
      simp only [journaled, noting, hclosed]
      cases closing with
      | cutOff => exact absurd rfl hnot
      | closed => exact ⟨_, _, _, by simp only [List.append_assoc]; rfl⟩
      | failed fault => exact ⟨_, _, _, by simp only [List.append_assoc]; rfl⟩
      | brokeDown => exact ⟨_, _, _, by simp only [List.append_assoc]; rfl⟩

end

/-- An operation that keeps the device and does no more to the engine than requests. -/
def Quiet (b : EngineTunnel (Nat × δ)) (x : Diary ω) (s : EngineTunnel (Nat × δ) × Diary ω) : Prop :=
  s.1.device = b.device ∧ ∃ w acts, (∀ act ∈ acts, Act.IsRequest act) ∧
    s.2 = ⟨w, x.made, x.acts ++ acts⟩

theorem quiet_same (b : EngineTunnel (Nat × δ)) (x : Diary ω) : Quiet b x (b, x) :=
  ⟨rfl, x.world, [], by simp, by simp⟩

section

variable (e : Engine ω δ) (b : EngineTunnel (Nat × δ)) (x : Diary ω)

theorem quiet_send (body : String) : Quiet b x (send e.journaled body (b, x)).2 := by
  unfold send
  dsimp only
  split
  · split
    · exact quiet_same b x
    · next numbered _ =>
        refine ⟨rfl, _, [.set numbered.1 body _], ?_, rfl⟩
        rw [List.forall_mem_singleton]
        exact Act.isRequest_set _ _ _
  · exact quiet_same b x

theorem quiet_insertPeer (peer : TunnelPeer) :
    Quiet b x (insertPeer e.journaled peer (b, x)).2 := by
  unfold insertPeer
  split
  · exact quiet_same b x
  · next key _ =>
      have hquiet := quiet_send e b x (body (peerSettings key peer))
      split
      · next hsend =>
          rw [hsend] at hquiet
          exact hquiet
      · exact hquiet

theorem quiet_erasePeer (publicKey : String) :
    Quiet b x (erasePeer e.journaled publicKey (b, x)).2 := by
  unfold erasePeer
  split
  · exact quiet_same b x
  · next key _ =>
      have hquiet := quiet_send e b x (body [.publicKey key, .remove])
      split
      · next hsend =>
          rw [hsend] at hquiet
          exact hquiet
      · exact hquiet

theorem quiet_transferred : Quiet b x (transferred e.journaled (b, x)).2 := by
  unfold transferred
  dsimp only
  split
  · split
    · exact quiet_same b x
    · next numbered _ =>
        have hquiet : Quiet b x (b, (e.journaled.get numbered x).2) := by
          refine ⟨rfl, _, [.got numbered.1 _], ?_, rfl⟩
          rw [List.forall_mem_singleton]
          exact Act.isRequest_got _ _
        split
        · next hget =>
            rw [hget] at hquiet
            exact hquiet
        · next hget =>
            rw [hget] at hquiet
            split <;> exact hquiet
  · exact quiet_same b x

end

/-- The number of the stored device. -/
def storedNumber (b : EngineTunnel (Nat × δ)) : Option Nat := b.device.map (·.1)

/-- A call that keeps the device and makes requests alone. -/
theorem noted_of_quiet {e : Engine ω δ} {b : EngineTunnel (Nat × δ)} {x : Diary ω} {call : Call}
    (h : Quiet b { x with acts := [] } (perform e.journaled (b, { x with acts := [] }) call).2) :
    Noted (storedNumber b) x.made (note e (b, x) call).1 (storedNumber (note e (b, x) call).2.1)
      (note e (b, x) call).2.2.made := by
  obtain ⟨hdevice, w, acts, hacts, hpage⟩ := h
  simp only [note, storedNumber, hdevice, hpage, List.nil_append]
  exact .requests hacts

section

variable {e : Engine ω δ} (hclose : ∀ device w, (e.close device none w).1 ≠ .cutOff)
  (b : EngineTunnel (Nat × δ)) (x : Diary ω)
include hclose

/-- What a start does once there is a device: it takes it up, or gives it up again. -/
theorem noted_start_created {config : TunnelSettings} {key : Key} {device : δ} {w : ω}
    (hnone : b.device = none) (hkey : Key.read config.privateKey = .ok key)
    (hcreate : e.create config.interfaceName x.world = (.ok device, w)) :
    Noted none x.made (note e (b, x) (.start config)).1
      (storedNumber (note e (b, x) (.start config)).2.1)
      (note e (b, x) (.start config)).2.2.made := by
  have hcreated : e.journaled.create config.interfaceName { x with acts := [] } =
      (.ok (x.made, device), ⟨w, x.made + 1, [.created x.made]⟩) := by
    simp only [journaled, hcreate, List.nil_append]
  obtain ⟨v, acts, hacts, hconfigure⟩ :=
    configure_journaled e x.made device ⟨w, x.made + 1, [.created x.made]⟩ key config
  cases hresult : configure e.journaled (x.made, device) key config
      ⟨w, x.made + 1, [.created x.made]⟩ with
  | mk result y =>
      rw [hresult] at hconfigure
      obtain rfl : y = ⟨v, x.made + 1, .created x.made :: acts⟩ := hconfigure
      cases result with
      | ok done =>
          have hnote : note e (b, x) (.start config) =
              (⟨.start config, .done (.ok ()), .created x.made :: acts⟩,
                { device := some (x.made, device), config := some config, running := true },
                ⟨v, x.made + 1, .created x.made :: acts⟩) := by
            simp only [note, perform, start, hnone, hkey, hcreated, hresult, Option.isSome_none,
              Bool.false_eq_true, if_false]
          rw [hnote]
          exact .started rfl hacts
      | error fault =>
          obtain ⟨u, closing, gone, hdismantle⟩ := dismantle_journaled e x.made device
            ⟨v, x.made + 1, .created x.made :: acts⟩ hclose
          have hnote : note e (b, x) (.start config) =
              (⟨.start config, .done (.error (.engine fault)), .created x.made :: acts ++
                  [.closed x.made closing, .unlinked x.made gone, .discarded x.made]⟩,
                b, ⟨u, x.made + 1, .created x.made :: acts ++
                  [.closed x.made closing, .unlinked x.made gone, .discarded x.made]⟩) := by
            simp only [note, perform, start, hnone, hkey, hcreated, hresult, hdismantle,
              Option.isSome_none, Bool.false_eq_true, if_false]
          have hstored : storedNumber b = none := by rw [storedNumber, hnone]; rfl
          rw [hnote, hstored]
          exact .undone rfl hacts

theorem noted_start (config : TunnelSettings) :
    Noted (storedNumber b) x.made (note e (b, x) (.start config)).1
      (storedNumber (note e (b, x) (.start config)).2.1)
      (note e (b, x) (.start config)).2.2.made := by
  by_cases hsome : b.device.isSome = true
  · have hnote : note e (b, x) (.start config) =
        (⟨.start config, .done (.error .alreadyRunning), []⟩, b, { x with acts := [] }) := by
      simp only [note, perform, start, hsome, if_true]
    rw [hnote]
    exact .requests (by simp)
  · have hnone : b.device = none := by simpa using hsome
    cases hkey : Key.read config.privateKey with
    | error fault =>
        have hnote : note e (b, x) (.start config) =
            (⟨.start config, .done (.error (.invalidKey .privateKey fault)), []⟩, b,
              { x with acts := [] }) := by
          simp only [note, perform, start, hsome, hkey, Bool.false_eq_true, if_false]
        rw [hnote]
        exact .requests (by simp)
    | ok key =>
        cases hcreate : e.create config.interfaceName x.world with
        | mk made w =>
            cases made with
            | ok device =>
                have hstored : storedNumber b = none := by rw [storedNumber, hnone]; rfl
                rw [hstored]
                exact noted_start_created hclose b x hnone hkey hcreate
            | error fault =>
                have hcreated : e.journaled.create config.interfaceName { x with acts := [] } =
                    (.error fault, ⟨w, x.made, [.notCreated]⟩) := by
                  simp only [journaled, hcreate, List.nil_append]
                have hnote : note e (b, x) (.start config) =
                    (⟨.start config, .done (.error (.engine fault)), [.notCreated]⟩, b,
                      ⟨w, x.made, [.notCreated]⟩) := by
                  simp only [note, perform, start, hsome, hkey, hcreated, Bool.false_eq_true,
                    if_false]
                rw [hnote]
                refine .requests ?_
                rw [List.forall_mem_singleton]
                exact Act.isRequest_notCreated

/-- **What a call does to the engine is one of five things.** -/
theorem noted_note (call : Call) :
    Noted (storedNumber b) x.made (note e (b, x) call).1 (storedNumber (note e (b, x) call).2.1)
      (note e (b, x) call).2.2.made := by
  cases call with
  | start config => exact noted_start hclose b x config
  | stop =>
      cases hdevice : b.device with
      | none =>
          have hnote : note e (b, x) .stop =
              (⟨.stop, .stopped (some (.ok ())), []⟩, b, { x with acts := [] }) := by
            simp only [note, perform, stop, hdevice]
          rw [hnote]
          exact .requests (by simp)
      | some device =>
          obtain ⟨w, closing, gone, hdismantle⟩ :=
            dismantle_journaled e device.1 device.2 { x with acts := [] } hclose
          have hnote : note e (b, x) .stop =
              (⟨.stop, .stopped (some (.ok ())),
                [.closed device.1 closing, .unlinked device.1 gone, .discarded device.1]⟩, {},
                ⟨w, x.made, [.closed device.1 closing, .unlinked device.1 gone,
                  .discarded device.1]⟩) := by
            simp only [note, perform, stop, hdevice, hdismantle, Option.map_some, List.nil_append]
          rw [hnote]
          exact .stopped (by rw [storedNumber, hdevice]; rfl)
  | abort =>
      cases hdevice : b.device with
      | none =>
          have hnote : note e (b, x) .abort =
              (⟨.abort, .aborted, []⟩, {}, { x with acts := [] }) := by
            simp only [note, perform, abort, hdevice]
          have hstored : storedNumber b = none := by rw [storedNumber, hdevice]; rfl
          rw [hnote, hstored]
          exact .requests (by simp)
      | some device =>
          have hnote : note e (b, x) .abort =
              (⟨.abort, .aborted, [.discarded device.1]⟩, {},
                ⟨e.discard device.2 x.world, x.made, [.discarded device.1]⟩) := by
            simp only [note, perform, abort, hdevice, journaled, List.nil_append]
          rw [hnote]
          exact .abandoned (by rw [storedNumber, hdevice]; rfl)
  | insertPeer peer =>
      exact noted_of_quiet (by simpa only [perform] using quiet_insertPeer e b _ peer)
  | erasePeer key =>
      exact noted_of_quiet (by simpa only [perform] using quiet_erasePeer e b _ key)
  | transferred =>
      exact noted_of_quiet (by simpa only [perform] using quiet_transferred e b _)

end

/-! ## Over all pages -/

section

variable {entries : List Entry} {entry : Entry} {device device' : Option Nat} {made made' : Nat}

/-- How the devices stand after some pages, with the number of the stored device and how many have
been made. -/
structure Settled (entries : List Entry) (device : Option Nat) (made : Nat) : Prop where
  numbers : (journal entries).filterMap Act.made? = List.range made
  stored : ∀ n, device = some n → n < made ∧ releases n entries = []
  givenUp : ∀ n, n < made → device ≠ some n → GivenUp n (releases n entries)
  fresh : ∀ n, made ≤ n → releases n entries = []
  alone : ∀ acts, acts <+: journal entries → ∀ m n, Alive acts m → Alive acts n → m = n

theorem Settled.created_iff (h : Settled entries device made) {n : Nat} :
    .created n ∈ journal entries ↔ n < made := by
  rw [← List.mem_range, ← h.numbers, List.mem_filterMap]
  constructor
  · intro hmem
    exact ⟨_, hmem, rfl⟩
  · rintro ⟨act, hmem, hmade⟩
    cases act <;> cases hmade
    exact hmem

theorem GivenUp.discarded {n : Nat} (h : GivenUp n (releases n entries)) :
    .discarded n ∈ journal entries := by
  refine (mem_journal_iff (n := n) (by simp)).mpr ?_
  generalize releases n entries = given at h
  cases h <;> exact ⟨_, List.mem_singleton_self _, by simp⟩

/-- **The stored device is the one that is alive.** -/
theorem Settled.alive_iff (h : Settled entries device made) {n : Nat} :
    Alive (journal entries) n ↔ device = some n := by
  constructor
  · rintro ⟨hcreated, hkept⟩
    by_contra hother
    exact hkept (h.givenUp n (h.created_iff.mp hcreated) hother).discarded
  · intro hstored
    obtain ⟨hlt, hnone⟩ := h.stored n hstored
    refine ⟨h.created_iff.mpr hlt, fun hdiscarded => ?_⟩
    obtain ⟨entry, hentry, -⟩ :=
      (mem_journal_iff (n := n) (by simp)).mp hdiscarded
    rw [hnone] at hentry
    cases hentry

/-- Requests give no device up. -/
theorem filter_givesUp_of_requests {acts : List Act} (h : ∀ act ∈ acts, act.IsRequest) (n : Nat) :
    acts.filter (·.givesUp n) = [] := by
  rw [List.filter_eq_nil_iff]
  intro act hact
  rw [(h act hact).2 n]
  exact Bool.false_ne_true

/-- Requests make no device. -/
theorem filterMap_made?_of_requests {acts : List Act} (h : ∀ act ∈ acts, act.IsRequest) :
    acts.filterMap Act.made? = [] := by
  rw [List.filterMap_eq_nil_iff]
  exact fun act hact => (h act hact).1

/-- A call makes a device only while none is stored, and gives it the next number. -/
theorem Noted.numbers (h : Noted device made entry device' made') :
    (entry.acts.filterMap Act.made? = [] ∧ made' = made) ∨
      (entry.acts.filterMap Act.made? = [made] ∧ made' = made + 1 ∧ device = none) := by
  cases h with
  | requests hacts => exact Or.inl ⟨filterMap_made?_of_requests hacts, rfl⟩
  | started hnone hacts =>
      refine Or.inr ⟨?_, rfl, hnone⟩
      simp [Act.made?, filterMap_made?_of_requests hacts]
  | undone hnone hacts =>
      refine Or.inr ⟨?_, rfl, hnone⟩
      simp [Act.made?, filterMap_made?_of_requests hacts]
  | stopped hsome => exact Or.inl ⟨rfl, rfl⟩
  | abandoned hsome => exact Or.inl ⟨rfl, rfl⟩

theorem Noted.made_le (h : Noted device made entry device' made') : made ≤ made' := by
  rcases h.numbers with ⟨-, rfl⟩ | ⟨-, rfl, -⟩ <;> omega

theorem Noted.le_made (h : Noted device made entry device' made') : made' ≤ made + 1 := by
  rcases h.numbers with ⟨-, rfl⟩ | ⟨-, rfl, -⟩ <;> omega

/-- At any point of the next page, too, no two devices are alive. -/
theorem Settled.alone_concat (h : Settled entries device made)
    (hnoted : Noted device made entry device' made') {acts : List Act}
    (hbegins : acts <+: journal entries ++ entry.acts) {m n : Nat} (hm : Alive acts m)
    (hn : Alive acts n) : m = n := by
  rcases List.prefix_or_prefix_of_prefix hbegins (List.prefix_append _ _) with
    hearlier | ⟨part, rfl⟩
  · exact h.alone acts hearlier m n hm hn
  · have hpart : part <+: entry.acts := (List.prefix_append_right_inj _).mp hbegins
    -- what is alive was stored before the page, or was made on it
    have hcases : ∀ k, Alive (journal entries ++ part) k →
        device = some k ∨ (device = none ∧ k = made) := by
      rintro k ⟨hcreated, hkept⟩
      rcases List.mem_append.mp hcreated with hbefore | hpage
      · exact Or.inl (h.alive_iff.mp ⟨hbefore, fun hd => hkept (List.mem_append_left _ hd)⟩)
      · have hmade : k ∈ entry.acts.filterMap Act.made? :=
          List.mem_filterMap.mpr ⟨_, hpart.subset hpage, rfl⟩
        rcases hnoted.numbers with ⟨hnil, -⟩ | ⟨hone, -, hnone⟩
        · rw [hnil] at hmade
          cases hmade
        · rw [hone] at hmade
          exact Or.inr ⟨hnone, List.mem_singleton.mp hmade⟩
    rcases hcases m hm with hm | ⟨hnone, hm⟩ <;> rcases hcases n hn with hn | ⟨hnone', hn⟩
    · exact Option.some.inj (hm.symm.trans hn)
    · rw [hnone'] at hm
      cases hm
    · rw [hnone] at hn
      cases hn
    · rw [hm, hn]

/-- What the next page adds to the giving up of a device: nothing, or all of it for the device that
was stored or has just been made. -/
theorem Noted.releases_cases (h : Noted device made entry device' made') (n : Nat) :
    (releases n [entry] = [] ∧ (device' = some n ↔ device = some n ∨ (n = made ∧ made < made'))) ∨
      (GivenUp n (releases n [entry]) ∧ device' = none ∧
        (device = some n ∨ (n = made ∧ made < made'))) := by
  cases h with
  | requests hacts =>
      refine Or.inl ⟨releases_of_filter (filter_givesUp_of_requests hacts n), ?_⟩
      simp
  | started hnone hacts =>
      refine Or.inl ⟨releases_of_filter ?_, ?_⟩
      · simp [filter_givesUp_of_requests hacts n]
      · simp [hnone, eq_comm]
  | @undone config fault acts closing gone hnone hacts =>
      have hrequests := filter_givesUp_of_requests hacts n
      by_cases hn : made = n
      · refine Or.inr ⟨?_, rfl, Or.inr ⟨hn.symm, by omega⟩⟩
        have hgiven := GivenUp.undone (n := n) config fault closing gone
        simpa [releases, hn, hrequests] using hgiven
      · refine Or.inl ⟨releases_of_filter ?_, ?_⟩
        · simp [hn, hrequests]
        · have hne : n ≠ made := fun heq => hn heq.symm
          simp [hnone, hne]
  | @stopped k closing gone hsome =>
      by_cases hn : k = n
      · have hgiven := GivenUp.stopped (n := n) closing gone
        refine Or.inr ⟨?_, rfl, Or.inl (hn ▸ hsome)⟩
        simpa [releases, hn] using hgiven
      · refine Or.inl ⟨releases_of_filter ?_, ?_⟩
        · simp [hn]
        · simp [hsome, hn]
  | @abandoned k hsome =>
      by_cases hn : k = n
      · have hgiven := GivenUp.abandoned (n := n)
        refine Or.inr ⟨?_, rfl, Or.inl (hn ▸ hsome)⟩
        simpa [releases, hn] using hgiven
      · refine Or.inl ⟨releases_of_filter ?_, ?_⟩
        · simp [hn]
        · simp [hsome, hn]

/-- **One page more leaves the devices settled.** -/
theorem Settled.concat (h : Settled entries device made)
    (hnoted : Noted device made entry device' made') :
    Settled (entries ++ [entry]) device' made' where
  numbers := by
    rw [journal_concat, List.filterMap_append, h.numbers]
    rcases hnoted.numbers with ⟨hnil, rfl⟩ | ⟨hone, rfl, -⟩
    · rw [hnil, List.append_nil]
    · rw [hone, List.range_succ]
  stored := by
    intro n hstored
    rw [releases_concat]
    rcases hnoted.releases_cases n with ⟨hnil, hkept⟩ | ⟨-, hnone, -⟩
    · rcases hkept.mp hstored with hbefore | ⟨rfl, hlt⟩
      · obtain ⟨hlt, hreleases⟩ := h.stored n hbefore
        exact ⟨by have := hnoted.made_le; omega, by rw [hreleases, hnil]; rfl⟩
      · exact ⟨hlt, by rw [h.fresh n (Nat.le_refl n), hnil]; rfl⟩
    · rw [hnone] at hstored
      cases hstored
  givenUp := by
    intro n hlt hother
    have hle := hnoted.le_made
    rw [releases_concat]
    rcases hnoted.releases_cases n with ⟨hnil, hkept⟩ | ⟨hgiven, -, hbefore | ⟨rfl, -⟩⟩
    · rw [Ne, hkept, not_or] at hother
      have hmade : n < made := by
        by_contra hge
        exact hother.2 ⟨by omega, by omega⟩
      rw [hnil, List.append_nil]
      exact h.givenUp n hmade hother.1
    · rw [(h.stored n hbefore).2]
      exact hgiven
    · rw [h.fresh n (Nat.le_refl n)]
      exact hgiven
  fresh := by
    intro n hge
    have hle := hnoted.made_le
    rw [releases_concat, h.fresh n (by omega), List.nil_append]
    rcases hnoted.releases_cases n with ⟨hnil, -⟩ | ⟨-, -, hbefore | ⟨rfl, hlt⟩⟩
    · exact hnil
    · have := (h.stored n hbefore).1
      omega
    · omega
  alone := by
    intro acts hbegins m n
    rw [journal_concat] at hbegins
    exact h.alone_concat hnoted hbegins

end

theorem settled_empty : Settled [] none 0 where
  numbers := rfl
  stored _ h := by cases h
  givenUp n h := by omega
  fresh _ _ := rfl
  alone acts hbegins m n hm := by
    obtain rfl := List.prefix_nil.mp hbegins
    exact absurd hm.1 List.not_mem_nil

section

variable (e : Engine ω δ) (w : ω) (calls : List Call)

theorem settled_record (hclose : ∀ device w, (e.close device none w).1 ≠ .cutOff) :
    let r := record e ({}, { world := w }) calls
    Settled r.1 (storedNumber r.2.1) r.2.2.made := by
  induction calls using List.reverseRecOn with
  | nil => exact settled_empty
  | append_singleton calls call ih =>
      rw [record_concat]
      exact ih.concat (noted_note hclose _ _ call)

/-- **The pages are not noticed**: the replies and all that the backend remembers are the same as
without them. -/
theorem record_unnoticed {t : EngineTunnel (Nat × δ) × Diary ω} {s : EngineTunnel δ × ω}
    (h : Unnoticed t s) :
    (record e t calls).1.map (·.call) = calls ∧
      (record e t calls).1.map (·.reply) = (serve e s calls).1 ∧
      Unnoticed (record e t calls).2 (serve e s calls).2 := by
  induction calls using List.reverseRecOn with
  | nil => exact ⟨rfl, rfl, h⟩
  | append_singleton calls call ih =>
      obtain ⟨hcalls, hreplies, hrelated⟩ := ih
      obtain ⟨hreply, hafter⟩ := perform_alike (alike_journaled e)
        (hrelated.withWorld (w := { (record e t calls).2.2 with acts := [] }) hrelated.world) call
      rw [record_concat, serve_concat]
      refine ⟨?_, ?_, hafter⟩
      · rw [List.map_append, hcalls]
        rfl
      · rw [List.map_append, hreplies]
        exact congrArg (fun reply => _ ++ [reply]) hreply

/-- **The backend's state is consistent, and its devices are bracketed**, whatever the engine does.
After every call the backend runs exactly while it has a device and a configuration, and it knows
no peers while it does not run; a call that fails leaves all that it remembers as it was, and
stopping never fails. At any time at most one device is alive, which between calls is the stored
one; every other device that was made was given up by exactly one call: a stop or the failed start
that made it, which close it and then delete its interface however the closing went, or an abort,
which does neither. -/
theorem state_consistent_and_devices_bracketed
    (hclose : ∀ device w, (e.close device none w).1 ≠ .cutOff) :
    let s := serve e ({}, w) calls
    let b := s.2.1
    let r := record e ({}, { world := w }) calls
    let acts := journal r.1
    (r.1.map (·.call) = calls ∧ r.1.map (·.reply) = s.1 ∧ r.2.1.device.map (·.2) = b.device) ∧
    (b.running = true ↔ b.device.isSome = true ∧ b.config.isSome = true) ∧
    b.config.isSome = b.device.isSome ∧
    (b.running = false → (backend e).knownPeers s.2 = []) ∧
    (∀ call, (perform e s.2 call).1.isError = true → (perform e s.2 call).2.1 = b) ∧
    (perform e s.2 .stop).1 = .stopped (some (.ok ())) ∧
    acts.filterMap Act.made? = List.range r.2.2.made ∧
    (∀ earlier, earlier <+: acts → ∀ m n, Alive earlier m → Alive earlier n → m = n) ∧
    (∀ n, Alive acts n ↔ ∃ device, r.2.1.device = some (n, device)) ∧
    ∀ n, .created n ∈ acts →
      (Alive acts n ∧ releases n r.1 = []) ∨ (¬Alive acts n ∧ GivenUp n (releases n r.1)) := by
  intro s b r acts
  obtain ⟨hcalls, hreplies, hrelated⟩ :=
    record_unnoticed e calls (t := ({}, { world := w })) (s := ({}, w)) (related_empty rfl)
  have hconsistent : Consistent b := consistent_serve e w calls
  have hsettled : Settled r.1 (storedNumber r.2.1) r.2.2.made := settled_record e w calls hclose
  refine ⟨⟨hcalls, hreplies, ?_⟩, ?_, hconsistent.config_eq, ?_, fun call => tunnel_of_isError e s.2,
    ?_, hsettled.numbers, hsettled.alone, fun n => ?_, fun n hcreated => ?_⟩
  · rcases hrelated.device_cases with ⟨hnone, hnone'⟩ | ⟨numbered, device, hsame, hsome, hsome'⟩
    · exact (congrArg _ hnone).trans hnone'.symm
    · exact (congrArg _ hsome).trans ((congrArg some hsame).trans hsome'.symm)
  · rw [hconsistent.config_eq, hconsistent.running_eq, and_self]
  · intro hdown
    have hnone : b.device = none := by
      rw [hconsistent.running_eq] at hdown
      simpa using hdown
    show b.peers.values = []
    rw [hconsistent.peers_eq hnone]
    rfl
  · rw [perform, stop_of_closes hclose]
  · rw [hsettled.alive_iff]
    simp [storedNumber]
  · by_cases hstored : storedNumber r.2.1 = some n
    · exact Or.inl ⟨hsettled.alive_iff.mpr hstored, (hsettled.stored n hstored).2⟩
    · exact Or.inr ⟨fun halive => hstored (hsettled.alive_iff.mp halive),
        hsettled.givenUp n (hsettled.created_iff.mp hcreated) hstored⟩

end

/-- On a stage closing never runs out of time when it has no limit. -/
theorem stage_closes (device : String) (stage : Stage) :
    (Stage.engine.close device none stage).1 ≠ .cutOff := by
  simp only [Stage.engine, Stage.wait, Bool.not_true, Bool.false_eq_true, if_false]
  split <;> simp

/-- An engine that refuses one port and breaks down whenever it closes. The first start is undone, the
device of the second is stopped, and that of the third stays alive. -/
theorem state_consistent_and_devices_bracketed_on_stage :
    let stage : Stage :=
      { script := { rejectSet := [("listen_port=1\n", -22)], closing := .breakingDown } }
    let start (port : UInt16) : Call :=
      .start ⟨"wg0", "YNqHbfBQKaGvzefSSLXYKoaaI9d6DvrULEgqRaD5mXo=", port, "10.0.0.1/24"⟩
    let calls := [start 1, start 51820, .stop, start 51820]
    let r := record Stage.engine ({}, { world := stage }) calls
    (∀ device stage, (Stage.engine.close device none stage).1 ≠ .cutOff) ∧
      (journal r.1).filterMap Act.made? = [0, 1, 2] ∧ Act.closed 1 .brokeDown ∈ journal r.1 ∧
      GivenUp 0 (releases 0 r.1) ∧ GivenUp 1 (releases 1 r.1) ∧
      Alive (journal r.1) 2 ∧ releases 2 r.1 = [] := by
  intro stage start calls r
  obtain ⟨-, -, -, -, -, -, -, -, -, hbracketed⟩ :=
    state_consistent_and_devices_bracketed Stage.engine stage calls stage_closes
  have hrun : (journal r.1).filterMap Act.made? = [0, 1, 2] ∧
      Act.closed 1 .brokeDown ∈ journal r.1 ∧
      (Act.created 0 ∈ journal r.1 ∧ ¬Alive (journal r.1) 0) ∧
      (Act.created 1 ∈ journal r.1 ∧ ¬Alive (journal r.1) 1) ∧
      (Act.created 2 ∈ journal r.1 ∧ Alive (journal r.1) 2) := by decide +kernel
  obtain ⟨hmade, hclosed, hundone, hstopped, hup⟩ := hrun
  exact ⟨stage_closes, hmade, hclosed,
    ((hbracketed 0 hundone.1).resolve_left fun h => hundone.2 h.1).2,
    ((hbracketed 1 hstopped.1).resolve_left fun h => hstopped.2 h.1).2,
    (hbracketed 2 hup.1).resolve_right fun h => h.1 hup.2⟩

end EngineTunnel

end OverlayVpn
