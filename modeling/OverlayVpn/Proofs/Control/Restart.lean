import OverlayVpn.Proofs.Control.Roster

set_option autoImplicit false

/-! # Restarts that nobody notices

A new process knows of the old one only what the registry's file says. As long as the writes of the
file succeed this is enough (`Restorable`): the file holds the records of memory, and every address
that the allocator has handed out is named by a record. A process that takes the old one's place and
starts with the same settings then has the same roster (`roster_restarted`), so that it answers all
further calls as the old one would have, dates aside; and a record that was there before keeps its
date (`get?_serve`). -/

namespace OverlayVpn

open Roster

/-! ## Rosters without held numbers -/

namespace Roster

/-- **While writes succeed, every number that is handed out belongs to a member.** -/
theorem held_answer {m : Roster} (h : m.held = ∅) (call : Plane.Call) :
    (m.answer true call).2.held = ∅ := by
  cases call with
  | start config =>
      simp only [answer]
      split <;> exact h
  | stop deadline => exact h
  | register key =>
      simp only [answer, register]
      split
      · exact h
      · split
        · exact h
        · split
          · exact h
          · exact h
          · next n hmember hvacant =>
              simp only [enrolled, if_true, h, Finset.erase_empty]
  | insertClient key address =>
      simp only [answer, insertClient]
      split
      · split
        · exact h
        · split
          · exact h
          · split
            · simp only [enrolled, if_true, h, Finset.erase_empty]
            · split <;> exact h
      · exact h
  | eraseClient key =>
      simp only [answer, eraseClient]
      split
      · split <;> exact h
      · exact h
  | clients => exact h

end Roster

namespace Plane

/-! ## What a call writes -/

section

variable {β : Type} {b : Backend β} {p q : Plane β} {call : Call} {reply : Reply} {key : String}

/-- What a commit leaves on the disk and in memory. -/
def Commits (p q : Plane β) (peers : KeyMap RegisteredPeer) : Prop :=
  q.host.disk = (p.registry.commit p.host.disk peers).2 ∧
    q.registry = (p.registry.commit p.host.disk peers).1.toOption.getD p.registry

theorem commits_recorded (hnew : p.registry.peers.get? key = none) (address : String) :
    p.Commits (p.recorded key address)
      (p.registry.peers.insert key ⟨key, address, p.host.clock.read.1⟩) := by
  simp only [Commits, recorded, record, Task.run_atomic, Registry.add, hnew]
  cases hcommit : p.registry.commit p.host.disk
      (p.registry.peers.insert key ⟨key, address, p.host.clock.read.1⟩) with
  | mk result disk => cases result <;> exact ⟨rfl, rfl⟩

theorem commits_struck {found : RegisteredPeer} (hfound : p.registry.peers.get? key = some found) :
    p.Commits (p.struck key) (p.registry.peers.erase key) := by
  simp only [Commits, struck, strike, Task.run_atomic, Registry.remove, hfound]
  cases hcommit : p.registry.commit p.host.disk (p.registry.peers.erase key) with
  | mk result disk => cases result <;> exact ⟨rfl, rfl⟩

/-- **A call writes the registry's file once at most**, and memory follows the file. -/
theorem registry_outcome (houtcome : Outcome b p call reply q) :
    (q.registry = p.registry ∧ q.host.disk = p.host.disk) ∨
    ∃ peers, reply.isFailed = false ∧ p.writes call = some peers ∧ p.Commits q peers := by
  cases houtcome with
  | refused | startFailed | started | idle | stopped | aborted | knownFailed | known | exhausted
  | insertFailed | eraseFailed | clients => exact Or.inl ⟨rfl, rfl⟩
  | registerFailed hrunning hrecord hlease htold =>
      exact Or.inl ⟨by rw [registry_released]; rfl, by rw [host_released]; rfl⟩
  | @registered key running address backend q hrunning hrecord hlease htold hq hkey =>
      have hnew : { p.lease.2 with backend }.registry.peers.get? key = none := hrecord
      have hcommits := commits_recorded hnew (Network.host address).text
      rw [← hq] at hcommits
      refine Or.inr ⟨_, rfl, writes_register hrecord hlease, ?_⟩
      rw [Commits, disk_registeredAt, registry_registeredAt]
      exact hcommits
  | @inserted key address host backend hrunning hhost hrecord htold hkey =>
      cases hfound : p.registry.peers.get? key with
      | none =>
          have hnew : { p with backend }.registry.peers.get? key = none := hfound
          exact Or.inr ⟨_, rfl, writes_insertClient hfound hhost,
            commits_recorded hnew (Network.host host).text⟩
      | some record =>
          rw [recorded_of_known (p := { p with backend }) hfound (hrecord record hfound)]
          exact Or.inl ⟨rfl, rfl⟩
  | @erased key backend hrunning hdropped =>
      cases hfound : p.registry.peers.get? key with
      | none =>
          have hsame : { p with backend }.struck key = { p with backend } := by
            simp only [struck, strike, Task.run_atomic, Registry.remove, hfound]
          rw [hsame]
          exact Or.inl ⟨rfl, rfl⟩
      | some record =>
          have hfound' : { p with backend }.registry.peers.get? key = some record := hfound
          have hcommits := commits_struck hfound'
          refine Or.inr ⟨_, rfl, writes_eraseClient hfound, ?_⟩
          rw [Commits, host_released, registry_released]
          exact hcommits

/-! ## Records that stay -/

/-- The key of the client that a call adds. -/
def Call.added? : Call → Option String
  | .register key | .insertClient key _ => some key
  | _ => none

/-- A call writes down a new record or leaves one out. -/
theorem writes_cases {peers : KeyMap RegisteredPeer} (h : p.writes call = some peers) :
    (∃ other record, call.added? = some other ∧ p.registry.peers.get? other = none ∧
      peers = p.registry.peers.insert other record) ∨
    ∃ other, call = .eraseClient other ∧ peers = p.registry.peers.erase other := by
  cases call with
  | start | stop | clients => cases h
  | register other =>
      simp only [writes] at h
      split at h
      · next hnew _ => exact Or.inl ⟨other, _, rfl, hnew, (Option.some.inj h).symm⟩
      · cases h
  | insertClient other address =>
      simp only [writes] at h
      split at h
      · next hnew _ => exact Or.inl ⟨other, _, rfl, hnew, (Option.some.inj h).symm⟩
      · cases h
  | eraseClient other =>
      obtain ⟨found, -, rfl⟩ := Option.map_eq_some_iff.mp h
      exact Or.inr ⟨other, rfl, rfl⟩

/-- What a call writes has the records of all keys but the one that it removes. -/
theorem get?_writes {peers : KeyMap RegisteredPeer} {record : RegisteredPeer}
    (hwrites : p.writes call = some peers) (hcall : call ≠ .eraseClient key)
    (hrecord : p.registry.peers.get? key = some record) : peers.get? key = some record := by
  rcases writes_cases hwrites with ⟨other, added, -, hnew, rfl⟩ | ⟨other, rfl, rfl⟩
  · have hne : key ≠ other := by
      rintro rfl
      rw [hrecord] at hnew
      cases hnew
    rw [KeyMap.get?_insert_of_ne _ _ hne, hrecord]
  · have hne : key ≠ other := by
      rintro rfl
      exact hcall rfl
    rw [KeyMap.get?_erase_of_ne _ hne, hrecord]

/-- **A record stays as it is until its key is removed**, whether writes succeed or not. -/
theorem get?_outcome (houtcome : Outcome b p call reply q) (hcall : call ≠ .eraseClient key)
    {record : RegisteredPeer} (hrecord : p.registry.peers.get? key = some record) :
    q.registry.peers.get? key = some record := by
  rcases registry_outcome houtcome with ⟨hregistry, -⟩ | ⟨peers, -, hwrites, -, hregistry⟩
  · rw [hregistry, hrecord]
  · rw [hregistry]
    rcases Registry.commit_cases p.registry p.host.disk peers with ⟨disk', -, heq⟩ |
      ⟨error, disk', -, heq⟩
    · rw [heq]
      exact get?_writes hwrites hcall hrecord
    · rw [heq]
      exact hrecord

theorem get?_serve {calls : List Call} {record : RegisteredPeer}
    (hrecord : p.registry.peers.get? key = some record) (hcalls : .eraseClient key ∉ calls) :
    (p.serve b calls).2.registry.peers.get? key = some record := by
  induction calls generalizing p with
  | nil => exact hrecord
  | cons call calls ih =>
      have hcall : call ≠ .eraseClient key := fun h => hcalls (h ▸ List.mem_cons_self)
      have hnext := get?_outcome (outcome_perform b p call) hcall hrecord
      exact ih hnext fun h => hcalls (List.mem_cons_of_mem _ h)

/-- A client that is written down is told the date of its record. -/
theorem registeredAt_of_known {registration : Registration} {record : RegisteredPeer}
    (houtcome : Outcome b p (.register key) (.registered registration) q)
    (hrecord : p.registry.peers.get? key = some record) :
    registration.registeredAt = record.registeredAt := by
  cases houtcome with
  | known hrunning hfound htold hkey =>
      obtain rfl := Option.some.inj (hrecord.symm.trans hfound)
      rfl
  | registered hrunning hnew hlease htold hq hkey =>
      rw [hrecord] at hnew
      cases hnew

end

/-! ## What a new process finds -/

variable {ω δ : Type} {e : Engine ω δ} {p q : Plane (EngineTunnel δ × ω)} {call : Call}
  {reply : Reply}

/-- A control plane of which the registry's file says all that a new process has to know. -/
structure Restorable (p : Plane (EngineTunnel δ × ω)) : Prop where
  steady : Steady p
  /-- Every number that is handed out belongs to a member. -/
  held_eq : p.roster.held = ∅
  loads : Registry.load p.host.disk p.registry.path = .ok p.registry
  valid : ∀ run, p.running = some run → validate run.config = .ok run.publicKey

/-- **Each call leaves a control plane restorable** if its write succeeds. -/
theorem restorable_perform (he : e.Accepts) (h : Restorable p)
    (hwrite : p.writeSucceeds (EngineTunnel.backend e) call = true) :
    Restorable (p.perform (EngineTunnel.backend e) call).2 := by
  have houtcome := outcome_perform (EngineTunnel.backend e) p call
  have hanswer := answer_perform he h.steady call
  rw [hwrite] at hanswer
  refine ⟨steady_outcome h.steady houtcome, ?_, ?_, ?_⟩
  · have hheld := held_answer h.held_eq call
    rw [hanswer] at hheld
    exact hheld
  · rcases registry_outcome houtcome with ⟨hregistry, hdisk⟩ | ⟨peers, hdone, hwrites, hdisk, hregistry⟩
    · rw [hregistry, hdisk]
      exact h.loads
    · have hok := mayWrite_of_writeSucceeds hwrite hdone peers hwrites
      rcases Registry.commit_cases p.registry p.host.disk peers with ⟨disk', hreplace, heq⟩ |
        ⟨error, disk', -, heq⟩
      · rw [hregistry, hdisk, heq]
        exact Registry.load_of_replace hreplace
      · rw [heq] at hok
        cases hok
  · rcases tunnel_outcome houtcome with ⟨hsame, -⟩ | ⟨-, -, run, hrun, hvalid⟩ | ⟨hstopped, -⟩
    · rw [hsame]
      exact h.valid
    · rintro run' hrun'
      obtain rfl := Option.some.inj (hrun.symm.trans hrun')
      exact hvalid
    · rintro run hrun
      rw [hstopped] at hrun
      cases hrun

theorem restorable_serve (he : e.Accepts) (h : Restorable p) {calls : List Call}
    (hwrites : p.writesSucceed (EngineTunnel.backend e) calls = true) :
    Restorable (p.serve (EngineTunnel.backend e) calls).2 := by
  induction calls generalizing p with
  | nil => exact h
  | cons call calls ih =>
      simp only [writesSucceed, Bool.and_eq_true] at hwrites
      exact ih (restorable_perform he h hwrites.1) hwrites.2

theorem restorable_openAt {host : Host} {path : Path} {config : PoolConfig} {w : ω}
    (hopen : openAt host path config (({}, w) : EngineTunnel δ × ω) = .ok p) : Restorable p := by
  have hsteady := steady_openAt hopen
  obtain ⟨registry, disk, pool, hregistry, -, rfl⟩ := openAt_eq_ok hopen
  have hload : Registry.load disk path = .ok registry := by
    obtain ⟨hload, hdisk⟩ := Prod.mk.inj hregistry
    rw [← hdisk]
    exact hload
  refine ⟨hsteady, ?_, ?_, fun run hrun => by cases hrun⟩
  · simp only [roster, Allocator.create, List.toFinset_nil, Finset.empty_sdiff]
  · simp only [Registry.path_of_load hload, hload]

/-! ## The new process -/

/-- What a process finds that takes the place of another: its files, a clock of its own, failures
of its own in store, and a world of which nothing is known. -/
def restarted (p : Plane (EngineTunnel δ × ω)) (failures : List (Option DiskFailure)) (clock : Clock)
    (world : ω) : Except Registry.Fault Unit × Plane (EngineTunnel δ × ω) :=
  { p with host := { disk := { p.host.disk with failures }, clock } }.restart fun _ => ({}, world)

/-- **A new process reads the registry as it was**, and stands still. -/
theorem restarted_eq (h : Restorable p) (failures : List (Option DiskFailure)) (clock : Clock)
    (world : ω) : ∃ q, p.restarted failures clock world = (.ok (), q) ∧ q.running = none ∧
      q.backend.1 = {} ∧ q.allocator = .create p.allocator.pool p.allocator.strategy ∧
      q.registry = p.registry ∧ Registry.load q.host.disk p.registry.path = .ok p.registry := by
  have hload : Registry.load { p.host.disk with failures } p.registry.path = .ok p.registry :=
    Registry.load_of_loses (Disk.Spares.failures _ _ failures) (Disk.OnlyLoses.failures _ failures)
      h.loads
  obtain ⟨disk, hopen, hload'⟩ := Registry.openAt_of_load hload
  have heq : p.restarted failures clock world = (.ok (),
      { backend := ({}, world)
        registry := p.registry
        allocator := .create p.allocator.pool p.allocator.strategy
        host := { disk, clock } }) := by
    simp only [restarted, restart, hopen]
  exact ⟨_, heq, rfl, rfl, rfl, rfl, hload'⟩

/-- **A new process is on the roster of the old one**, but for the server that it has not started. -/
theorem roster_restarted (h : Restorable p) (failures : List (Option DiskFailure)) (clock : Clock)
    (world : ω) : ∃ q, p.restarted failures clock world = (.ok (), q) ∧ Restorable q ∧
      q.running = none ∧ q.registry = p.registry ∧ q.roster = { p.roster with server := none } := by
  obtain ⟨q, hrestarted, hstopped, hbackend, hallocator, hregistry, hload⟩ :=
    restarted_eq h failures clock world
  have hroster : q.roster = { p.roster with server := none } := by
    have hheld := h.held_eq
    simp only [roster] at hheld ⊢
    simp only [hstopped, hregistry, hallocator, hheld, Allocator.create, List.toFinset_nil,
      Finset.empty_sdiff, Option.map_none]
  have hsound : q.allocator.Sound := by
    rw [hallocator]
    exact Allocator.sound_create h.steady.orderly.sound.last_lt _
  refine ⟨q, hrestarted, ⟨⟨.of_stopped hsound hstopped, fun _ => by rw [hbackend]⟩, ?_, ?_, ?_⟩,
    hstopped, hregistry, hroster⟩
  · rw [hroster]
    exact h.held_eq
  · rw [hregistry]
    exact hload
  · rintro run hrun
    rw [hstopped] at hrun
    cases hrun

/-- A control plane that does not run starts with settings that make sense. -/
theorem start_of_restorable (he : e.Accepts) (h : Restorable p) (hstopped : p.running = none)
    {config : TunnelSettings} {publicKey : String} (hvalid : validate config = .ok publicKey) :
    (p.perform (EngineTunnel.backend e) (.start config)).1 = .started ∧
      Restorable (p.perform (EngineTunnel.backend e) (.start config)).2 ∧
      (p.perform (EngineTunnel.backend e) (.start config)).2.registry = p.registry ∧
      (p.perform (EngineTunnel.backend e) (.start config)).2.roster =
        { p.roster with server := some (config.contact publicKey) } := by
  have hanswer := answer_perform he h.steady (.start config)
  simp only [answer, server_eq_none hstopped, hvalid, Prod.mk.injEq] at hanswer
  obtain ⟨hreply, hroster⟩ := hanswer
  have hwrite : p.writeSucceeds (EngineTunnel.backend e) (.start config) = true := by
    simp only [writeSucceeds, writes, Option.all_none, Bool.or_true]
  have houtcome := outcome_perform (EngineTunnel.backend e) p (.start config)
  refine ⟨?_, restorable_perform he h hwrite, ?_, hroster.symm⟩
  · -- no other reply reads like this one without its dates
    cases hperformed : (p.perform (EngineTunnel.backend e) (.start config)).1 with
    | started => rfl
    | failed | stopped | registered | inserted | erased | clients =>
        rw [hperformed] at hreply
        cases hreply
  · rcases registry_outcome houtcome with ⟨hregistry, -⟩ | ⟨peers, -, hwrites, -⟩
    · exact hregistry
    · cases hwrites

/-- Replies to one registration that tell the same but for their dates, of a client whose record is
the same, are the same. -/
theorem reply_eq_of_undated {b b' : Backend (EngineTunnel δ × ω)}
    {p' q' : Plane (EngineTunnel δ × ω)} {reply' : Reply} {key : String} {record : RegisteredPeer}
    (houtcome : Outcome b p (.register key) reply q)
    (houtcome' : Outcome b' p' (.register key) reply' q') (hundated : reply.undated = reply'.undated)
    (hrecord : p.registry.peers.get? key = some record)
    (hrecord' : p'.registry.peers.get? key = some record) : reply = reply' := by
  cases reply with
  | registered registration =>
      cases reply' with
      | registered registration' =>
          have hdate := registeredAt_of_known houtcome hrecord
          have hdate' := registeredAt_of_known houtcome' hrecord'
          obtain ⟨address, date, server⟩ := registration
          obtain ⟨address', date', server'⟩ := registration'
          simp only [Reply.undated, Answer.registered.injEq] at hundated hdate hdate'
          rw [hundated.1, hundated.2, hdate, hdate']
      | failed | started | stopped | inserted | erased | clients => cases hundated
  | failed fault =>
      cases reply' with
      | failed fault' =>
          simp only [Reply.undated, Answer.failed.injEq] at hundated
          rw [hundated]
      | started | stopped | registered | inserted | erased | clients => cases hundated
  | started | stopped | inserted | erased | clients => cases houtcome

/-- **Control planes on one roster answer alike** while their writes succeed. -/
theorem answers_alike (he : e.Accepts) (hp : Steady p) (hq : Steady q) (hsame : p.roster = q.roster)
    {calls : List Call} (hwrites : p.writesSucceed (EngineTunnel.backend e) calls = true)
    (hwrites' : q.writesSucceed (EngineTunnel.backend e) calls = true) :
    (p.serve (EngineTunnel.backend e) calls).1.map Reply.undated =
      (q.serve (EngineTunnel.backend e) calls).1.map Reply.undated := by
  have hanswers := answers_serve he hp calls
  have hanswers' := answers_serve he hq calls
  rw [traced_of_writesSucceed hwrites, hsame] at hanswers
  rw [traced_of_writesSucceed hwrites', hanswers] at hanswers'
  exact congrArg Prod.fst hanswers'

/-- **Nobody notices a restart**, however it is timed. Take a control plane that was opened with any
registry and runs after any calls, while the engine accepts every request and the writes of the
registry's file succeed. A new process reads the registry again and starts with the same settings.
From then on it answers any calls as the old process would have, dates aside; and a client that was
registered before and has not been removed since is told the date that it would have been told. -/
theorem restart_unnoticed (e : Engine ω δ) (he : e.Accepts) {host : Host} {path : Path}
    {config : PoolConfig} {w : ω} {p : Plane (EngineTunnel δ × ω)}
    (hopen : openAt host path config ({}, w) = .ok p) (before : List Call)
    (hbefore : p.writesSucceed (EngineTunnel.backend e) before = true) {run : ServerRun}
    (hrunning : (p.serve (EngineTunnel.backend e) before).2.running = some run)
    (failures : List (Option DiskFailure)) (clock : Clock) (world : ω) :
    let b := EngineTunnel.backend e
    let q := (p.serve b before).2
    let new := q.restarted failures clock world
    let started := new.2.perform b (.start run.config)
    let r := started.2
    new.1 = .ok () ∧ started.1 = .started ∧
      ∀ after : List Call, q.writesSucceed b after = true → r.writesSucceed b after = true →
        (r.serve b after).1.map Reply.undated = (q.serve b after).1.map Reply.undated ∧
        ∀ (earlier later : List Call) (key : String), after = earlier ++ .register key :: later →
          q.registry.peers.contains key = true → .eraseClient key ∉ earlier →
          ((r.serve b earlier).2.perform b (.register key)).1 =
            ((q.serve b earlier).2.perform b (.register key)).1 := by
  intro b q new started r
  have hq : Restorable q := restorable_serve he (restorable_openAt hopen) hbefore
  obtain ⟨s, hnew, hs, hstopped, hregistry, hroster⟩ := roster_restarted hq failures clock world
  obtain ⟨hstarted, hr, hregistry', hroster'⟩ :=
    start_of_restorable he hs hstopped (hq.valid run hrunning)
  have hstart : started = s.perform b (.start run.config) := by
    show new.2.perform b (.start run.config) = _
    rw [show new = (.ok (), s) from hnew]
  have hr : Restorable r := by
    show Restorable started.2
    rw [hstart]
    exact hr
  -- the new process has the records of the old one, and so the same roster once it is started
  have hrecords : r.registry = q.registry := by
    show started.2.registry = _
    rw [hstart, hregistry', hregistry]
  have hsame : r.roster = q.roster := by
    have hserver : some (run.config.contact run.publicKey) = q.roster.server :=
      (server_eq_some hrunning).symm
    show started.2.roster = _
    rw [hstart, hroster', hroster, hserver]
  refine ⟨by rw [show new = (.ok (), s) from hnew], by rw [hstart, hstarted], ?_⟩
  intro after hafter hafter'
  refine ⟨answers_alike he hr.steady hq.steady hsame hafter' hafter, ?_⟩
  rintro earlier later key rfl hknown hkept
  obtain ⟨record, hrecord⟩ := Option.isSome_iff_exists.mp hknown
  have hrecord' : r.registry.peers.get? key = some record := by rw [hrecords, hrecord]
  have hfound := get?_serve (b := b) hrecord hkept
  have hfound' := get?_serve (b := b) hrecord' hkept
  refine reply_eq_of_undated (outcome_perform b _ _) (outcome_perform b _ _) ?_ hfound' hfound
  -- the reply is the last of those up to it
  have hsplit : earlier ++ .register key :: later = (earlier ++ [.register key]) ++ later := by simp
  rw [hsplit, writesSucceed_append, Bool.and_eq_true] at hafter hafter'
  have hreplies := answers_alike he hr.steady hq.steady hsame hafter'.1 hafter.1
  simp only [serve_append, serve, List.map_append, List.map_cons, List.map_nil] at hreplies
  exact List.head_eq_of_cons_eq (List.append_inj_right' hreplies rfl)

/-- A client registers, and the next day a new process takes over: the client is told what it would
have been told, and another is given the address that it would have been given. -/
theorem restart_unnoticed_next_day :
    let b := EngineTunnel.backend Engine.bare
    let known := "xTIBA5rboUvnH4htodjb6e697QjLERt1NAB4mZqp8Dg="
    let before : List Call := [.start trialSettings, .register known]
    let after : List Call :=
      [.register known, .register "HIgo9xNzJMWLKASShiTqIybxZ0U3wGLiUeJ1PKf8ykw="]
    let nextDay : Clock := .still ⟨⟨2024, 5, 2⟩, ⟨12, 0, 0, 0⟩, by decide, by decide⟩
    ∃ p : Plane (EngineTunnel Unit × KeyMap Engine.PeerEntry),
      openAt (trialHost [none]) trialPath trialPool ({}, ∅) = .ok p ∧
      let q := (p.serve b before).2
      let r := ((q.restarted [] nextDay ∅).2.perform b (.start trialSettings)).2
      q.registry.peers.keys = [known] ∧
        (r.serve b after).1.map Reply.undated = (q.serve b after).1.map Reply.undated ∧
        (r.perform b (.register known)).1 = (q.perform b (.register known)).1 := by
  intro b known before after nextDay
  let p : Plane (EngineTunnel Unit × KeyMap Engine.PeerEntry) := trial ({}, ∅) []
  have hopen : openAt (trialHost [none]) trialPath trialPool ({}, ∅) = .ok p := openAt_trial _ []
  -- what is computed of the calls before and after the restart
  obtain ⟨hbefore, hconfig, hkeys, hold, hnew⟩ :
      let q := (p.serve b before).2
      p.writesSucceed b before = true ∧ q.running.map (·.config) = some trialSettings ∧
        q.registry.peers.keys = [known] ∧ q.writesSucceed b after = true ∧
        ((q.restarted [] nextDay ∅).2.perform b (.start trialSettings)).2.writesSucceed b after =
          true := by decide +kernel
  clear_value p before
  obtain ⟨run, hrunning, hsettings⟩ := Option.map_eq_some_iff.mp hconfig
  obtain ⟨-, -, hafter⟩ := restart_unnoticed Engine.bare Engine.bare_accepts hopen before hbefore
    hrunning [] nextDay ∅
  rw [hsettings] at hafter
  obtain ⟨hanswers, hdates⟩ := hafter after hold hnew
  have hknown : (p.serve b before).2.registry.peers.contains known = true := by
    rw [KeyMap.contains_iff_mem_keys, hkeys]
    exact List.mem_cons_self
  exact ⟨p, hopen, hkeys, hanswers, hdates [] _ known rfl hknown (by simp)⟩

end Plane

end OverlayVpn
