import OverlayVpn.Proofs.Control.Calls
import OverlayVpn.Proofs.Tunnel.EngineTunnel
import OverlayVpn.Rehearsal.Stage

set_option autoImplicit false

/-! # Control plane, backend and registry stay in step

A control plane over the engine's backend runs exactly while the backend does, and every peer of
the backend has a record with the one address that it is allowed (`InStep`). A call tells the
backend first and writes the record afterwards; as long as the writes succeed, each call keeps
this whatever the engine does (`inStep_outcome`). That every record has a peer (`Complete`) is what
a start achieves that passes over no record, and no later call undoes it. -/

namespace OverlayVpn

namespace Plane

variable {ω δ : Type}

/-- A control plane and its backend are in step. -/
structure InStep (p : Plane (EngineTunnel δ × ω)) : Prop where
  running_eq : p.running.isSome = p.backend.1.running
  device_eq : p.backend.1.device.isSome = p.backend.1.running
  peers_of_stopped : p.backend.1.running = false → p.backend.1.peers = ∅
  recorded : ∀ key peer, p.backend.1.peers.get? key = some peer →
    ∃ record, p.registry.peers.get? key = some record ∧
      peer = ⟨key, [record.allowedAddress], none, none⟩

/-- Every record has a peer. -/
def Complete (p : Plane (EngineTunnel δ × ω)) : Prop :=
  ∀ key record, p.registry.peers.get? key = some record →
    ∃ peer, p.backend.1.peers.get? key = some peer

/-! ## Restoring peers -/

/-- Peers of the records alone are added to those that the backend had. -/
structure Restored (entries : List (String × RegisteredPeer)) (before after : KeyMap TunnelPeer) :
    Prop where
  recorded : ∀ key peer, after.get? key = some peer → before.get? key = some peer ∨
    ∃ record, (key, record) ∈ entries ∧ peer = ⟨key, [record.allowedAddress], none, none⟩
  kept : ∀ key peer, before.get? key = some peer → ∃ peer', after.get? key = some peer'

theorem restored_nil (peers : KeyMap TunnelPeer) : Restored [] peers peers where
  recorded _ _ hpeer := Or.inl hpeer
  kept _ peer hpeer := ⟨peer, hpeer⟩

section

variable {entries : List (String × RegisteredPeer)} {before after : KeyMap TunnelPeer}

/-- A record that is passed over adds nothing. -/
theorem Restored.passedOver (h : Restored entries before after) (entry : String × RegisteredPeer) :
    Restored (entry :: entries) before after where
  recorded key peer hpeer := by
    rcases h.recorded key peer hpeer with hbefore | ⟨record, hmem, hsame⟩
    · exact Or.inl hbefore
    · exact Or.inr ⟨record, List.mem_cons_of_mem _ hmem, hsame⟩
  kept := h.kept

/-- A record that the backend is told of comes before the others. -/
theorem Restored.told {key : String} {record : RegisteredPeer}
    (h : Restored entries (before.insert key ⟨key, [record.allowedAddress], none, none⟩) after) :
    Restored ((key, record) :: entries) before after where
  recorded k peer hpeer := by
    rcases h.recorded k peer hpeer with hinserted | ⟨record', hmem, hsame⟩
    · rw [KeyMap.get?_insert] at hinserted
      split at hinserted
      · next hkey =>
          obtain rfl := Option.some.inj hinserted
          exact Or.inr ⟨record, by rw [hkey]; exact List.mem_cons_self, by rw [hkey]⟩
      · exact Or.inl hinserted
    · exact Or.inr ⟨record', List.mem_cons_of_mem _ hmem, hsame⟩
  kept k peer hpeer := by
    by_cases hkey : k = key
    · rw [hkey]
      exact h.kept key _ (KeyMap.get?_insert_self _ _ _)
    · exact h.kept k peer (by rwa [KeyMap.get?_insert_of_ne _ _ hkey])

end

/-- **Restoring adds peers of the records alone**, and one for every record when none is passed
over. -/
theorem restore_cases (e : Engine ω δ) (entries : List (String × RegisteredPeer))
    (s : EngineTunnel δ × ω) :
    ∃ peers, (restore (EngineTunnel.backend e) entries s).2.1 = { s.1 with peers } ∧
      Restored entries s.1.peers peers ∧
      ((restore (EngineTunnel.backend e) entries s).1.2 = 0 →
        ∀ entry ∈ entries, ∃ peer, peers.get? entry.1 = some peer) := by
  induction entries generalizing s with
  | nil => exact ⟨s.1.peers, rfl, restored_nil _, fun _ entry hentry => by cases hentry⟩
  | cons entry entries ih =>
      obtain ⟨key, record⟩ := entry
      cases htold : (EngineTunnel.backend e).allowPeer key [record.allowedAddress] s with
      | mk result s' =>
          obtain ⟨peers, heq, hrestored, hall⟩ := ih s'
          simp only [restore, htold]
          cases result with
          | ok u =>
              rw [EngineTunnel.tunnel_of_told htold] at heq hrestored
              refine ⟨peers, heq, hrestored.told, ?_⟩
              intro hskipped entry hentry
              -- the peer that was just added stays while the others are
              rcases List.mem_cons.mp hentry with rfl | hentry
              · exact hrestored.kept key _ (KeyMap.get?_insert_self _ _ _)
              · exact hall hskipped entry hentry
          | error fault =>
              rw [EngineTunnel.tunnel_of_notTold htold] at heq hrestored
              refine ⟨peers, heq, hrestored.passedOver _, ?_⟩
              intro hskipped
              simp only [tally] at hskipped
              omega

/-! ## One call -/

/-- What a call writes, once it has come through with the backend, can be written. -/
def MayWrite (p : Plane (EngineTunnel δ × ω)) (call : Call) (reply : Reply) : Prop :=
  reply.isFailed = false →
    ∀ peers, p.writes call = some peers → (p.registry.commit p.host.disk peers).1.isOk = true

variable {e : Engine ω δ} {p q : Plane (EngineTunnel δ × ω)} {call : Call} {reply : Reply}

/-- A change keeps plane and backend in step, and a peer for every record if there was one. -/
structure Keeps (p q : Plane (EngineTunnel δ × ω)) : Prop where
  inStep : InStep q
  complete : (p.running.isSome = true → Complete p) → q.running.isSome = true → Complete q

/-- What leaves alone what the plane, the backend and the registry hold. -/
theorem InStep.keeps_of_eq (h : InStep p) (hsame : q.running = p.running)
    (htunnel : q.backend.1 = p.backend.1) (hpeers : q.registry.peers = p.registry.peers) :
    Keeps p q where
  inStep :=
    { running_eq := by rw [hsame, htunnel]; exact h.running_eq
      device_eq := by rw [htunnel]; exact h.device_eq
      peers_of_stopped := by rw [htunnel]; exact h.peers_of_stopped
      recorded := by rw [htunnel, hpeers]; exact h.recorded }
  complete hcomplete hrunning := by
    rw [hsame] at hrunning
    rw [Complete, htunnel, hpeers]
    exact hcomplete hrunning

/-- A stopped plane over a backend that has forgotten everything is in step. -/
theorem keeps_of_stopped (hstopped : q.running = none) (htunnel : q.backend.1 = {}) :
    Keeps p q where
  inStep :=
    { running_eq := by rw [hstopped, htunnel]; rfl
      device_eq := by rw [htunnel]; rfl
      peers_of_stopped := fun _ => by rw [htunnel]
      recorded := fun key peer hpeer => by
        rw [htunnel] at hpeer
        cases hpeer }
  complete _ hrunning := by
    rw [hstopped] at hrunning
    cases hrunning

/-- A peer that is told to the backend and written down. -/
theorem InStep.keeps_of_insert (h : InStep p) (key : String) {address : String}
    {record : RegisteredPeer} (haddress : record.allowedAddress = address)
    (hrunning : p.running.isSome = true) (hsame : q.running = p.running)
    (htunnel : q.backend.1 = { p.backend.1 with
      peers := p.backend.1.peers.insert key ⟨key, [address], none, none⟩ })
    (hregistry : ∀ other, q.registry.peers.get? other =
      if other = key then some record else p.registry.peers.get? other) : Keeps p q where
  inStep :=
    { running_eq := by rw [hsame, htunnel]; exact h.running_eq
      device_eq := by rw [htunnel]; exact h.device_eq
      peers_of_stopped := by
        -- the backend of a running plane runs
        rw [htunnel]
        intro hstopped
        have hup := h.running_eq
        rw [hrunning] at hup
        exact absurd (hup.trans hstopped) (by decide)
      recorded := fun k peer hpeer => by
        rw [htunnel, KeyMap.get?_insert] at hpeer
        rw [hregistry k]
        split at hpeer
        · next hkey =>
            obtain rfl := Option.some.inj hpeer
            exact ⟨record, if_pos hkey, by rw [hkey, haddress]⟩
        · next hkey =>
            rw [if_neg hkey]
            exact h.recorded k peer hpeer }
  complete hcomplete _ := by
    intro k found hfound
    rw [htunnel, KeyMap.get?_insert]
    by_cases hkey : k = key
    · exact ⟨_, if_pos hkey⟩
    · rw [hregistry k, if_neg hkey] at hfound
      rw [if_neg hkey]
      exact hcomplete hrunning k found hfound

/-- A peer that is forgotten and struck out. -/
theorem InStep.keeps_of_erase (h : InStep p) (key : String) (hrunning : p.running.isSome = true)
    (hsame : q.running = p.running)
    (htunnel : q.backend.1 = { p.backend.1 with peers := p.backend.1.peers.erase key })
    (hregistry : ∀ other, q.registry.peers.get? other =
      if other = key then none else p.registry.peers.get? other) : Keeps p q where
  inStep :=
    { running_eq := by rw [hsame, htunnel]; exact h.running_eq
      device_eq := by rw [htunnel]; exact h.device_eq
      peers_of_stopped := by
        rw [htunnel]
        intro hstopped
        show p.backend.1.peers.erase key = ∅
        rw [h.peers_of_stopped hstopped]
        rfl
      recorded := fun k peer hpeer => by
        rw [htunnel, KeyMap.get?_erase] at hpeer
        rw [hregistry k]
        split at hpeer
        · cases hpeer
        · next hkey =>
            rw [if_neg hkey]
            exact h.recorded k peer hpeer }
  complete hcomplete _ := by
    intro k found hfound
    rw [hregistry k] at hfound
    rw [htunnel, KeyMap.get?_erase]
    split at hfound
    · cases hfound
    · next hkey =>
        rw [if_neg hkey]
        exact hcomplete hrunning k found hfound

/-- What a call writes down, if it may, is in the registry afterwards. -/
theorem exists_record_of_mayWrite {key address : String} {r : Plane (EngineTunnel δ × ω)}
    (hregistry : r.registry = p.registry) (hdisk : r.host.disk = p.host.disk)
    (hrecord : ∀ record, p.registry.peers.get? key = some record → record.allowedAddress = address)
    (hwrite : MayWrite p call reply) (hdone : reply.isFailed = false)
    (hwrites : p.registry.peers.get? key = none → p.writes call =
      some (p.registry.peers.insert key ⟨key, address, r.host.clock.read.1⟩)) :
    ∃ record : RegisteredPeer, record.allowedAddress = address ∧
      ∀ other, (r.recorded key address).registry.peers.get? other =
        if other = key then some record else p.registry.peers.get? other := by
  have hcommit : r.registry.peers.get? key = none → (r.registry.commit r.host.disk
      (r.registry.peers.insert key ⟨key, address, r.host.clock.read.1⟩)).1.isOk = true := by
    rw [hregistry, hdisk]
    exact fun hnone => hwrite hdone _ (hwrites hnone)
  obtain ⟨record, haddress, hget⟩ := get?_recorded (by rwa [hregistry]) hcommit
  refine ⟨record, haddress, fun other => ?_⟩
  rw [hget other, hregistry]

/-- **Each call but a start keeps a control plane and its backend in step**, whatever the engine
does. -/
theorem keeps_outcome (h : InStep p) (houtcome : Outcome (EngineTunnel.backend e) p call reply q)
    (hwrite : MayWrite p call reply) (hreply : reply ≠ .started) : Keeps p q := by
  cases houtcome with
  | refused hrefusal => exact h.keeps_of_eq rfl rfl rfl
  | startFailed hstopped hstart =>
      exact h.keeps_of_eq rfl (EngineTunnel.tunnel_of_startFailed hstart) rfl
  | started hstopped hvalid hstart => exact absurd rfl hreply
  | idle hstopped => exact h.keeps_of_eq rfl rfl rfl
  | @stopped deadline backend hrunning hstop =>
      rcases EngineTunnel.tunnel_of_stop hstop with htunnel | ⟨hdevice, -⟩
      · exact keeps_of_stopped rfl htunnel
      · -- a backend without a device is not that of a running plane
        have hup := h.running_eq
        rw [hrunning, ← h.device_eq, hdevice] at hup
        cases hup
  | aborted hrunning hstop => exact keeps_of_stopped rfl (EngineTunnel.tunnel_abort e _)
  | knownFailed hrunning hrecord htold =>
      exact h.keeps_of_eq rfl (EngineTunnel.tunnel_of_notTold htold) rfl
  | @known key running record backend hrunning hrecord htold =>
      refine h.keeps_of_insert key rfl (by rw [hrunning]; rfl) rfl
        (EngineTunnel.tunnel_of_told htold) fun other => ?_
      split
      · next hother => rw [hother]; exact hrecord
      · rfl
  | exhausted hrunning hrecord hlease => exact h.keeps_of_eq rfl rfl rfl
  | registerFailed hrunning hrecord hlease htold =>
      exact h.keeps_of_eq rfl (EngineTunnel.tunnel_of_notTold htold) rfl
  | @registered key running address backend q hrunning hrecord hlease htold hq =>
      -- the backend is told first; the record follows, since it can be written
      obtain ⟨record, haddress, hget⟩ := exists_record_of_mayWrite
        (p := p) (r := { p.lease.2 with backend }) rfl rfl (by simp [hrecord]) hwrite rfl
        fun _ => writes_register hrecord hlease
      rw [← hq] at hget
      have hsame : q.running = p.running := by rw [hq]; rfl
      have htunnel : q.backend.1 = backend.1 := by rw [hq]; rfl
      refine h.keeps_of_insert key haddress (by rw [hrunning]; rfl) ?_ ?_ ?_
      · rw [running_registeredAt, hsame]
      · rw [backend_registeredAt, htunnel]
        exact EngineTunnel.tunnel_of_told htold
      · rw [registry_registeredAt]
        exact hget
  | insertFailed hrunning hhost hrecord htold =>
      exact h.keeps_of_eq rfl (EngineTunnel.tunnel_of_notTold htold) rfl
  | @inserted key address host backend hrunning hhost hrecord htold =>
      obtain ⟨record, haddress, hget⟩ := exists_record_of_mayWrite
        (p := p) (r := { p with backend }) rfl rfl hrecord hwrite rfl
        fun hnone => writes_insertClient hnone hhost
      exact h.keeps_of_insert key haddress hrunning rfl (EngineTunnel.tunnel_of_told htold) hget
  | eraseFailed hrunning hdropped =>
      exact h.keeps_of_eq rfl (EngineTunnel.tunnel_of_notDropped hdropped) rfl
  | @erased key backend hrunning hdropped =>
      have hget := @get?_struck _ { p with backend } key fun record hfound =>
        hwrite rfl _ (@writes_eraseClient _ p key record hfound)
      refine h.keeps_of_erase key hrunning ?_ ?_ ?_
      · rw [running_released]
        rfl
      · rw [backend_released]
        exact EngineTunnel.tunnel_of_dropped hdropped
      · rw [registry_released]
        exact hget
  | clients hrunning => exact h.keeps_of_eq rfl rfl rfl

/-- How many records a start passes over. -/
def passedOver (b : Backend (EngineTunnel δ × ω)) (p : Plane (EngineTunnel δ × ω))
    (config : TunnelSettings) : Nat :=
  let p := { p with backend := (b.start config p.backend).2 }
  ((replay b p.registry.peers.entries).run p).1.2

/-- **A start puts plane and backend in step**, with a peer for every record when it passes over
none. -/
theorem inStep_started {config : TunnelSettings}
    (houtcome : Outcome (EngineTunnel.backend e) p (.start config) .started q) :
    InStep q ∧ (passedOver (EngineTunnel.backend e) p config = 0 → Complete q) := by
  cases houtcome with
  | @started _ publicKey backend hstopped hvalid hstart =>
      obtain ⟨device, htunnel⟩ := EngineTunnel.tunnel_of_started hstart
      obtain ⟨peers, heq, hrestored, hall⟩ := restore_cases e p.registry.peers.entries backend
      rw [htunnel] at heq hrestored
      refine ⟨⟨?_, ?_, ?_, fun key peer hpeer => ?_⟩, fun hskipped => ?_⟩
      · simp only [launched, heq, Option.isSome_some]
      · simp only [launched, heq, Option.isSome_some]
      · simp only [launched, heq, Bool.true_eq_false, false_implies]
      · simp only [launched, heq] at hpeer
        rcases hrestored.recorded key peer hpeer with hbefore | ⟨record, hmem, hpeer'⟩
        · cases hbefore
        · exact ⟨record, KeyMap.mem_entries_iff.mp hmem, hpeer'⟩
      · simp only [passedOver, hstart, run_replay] at hskipped
        intro key record hrecord
        simp only [launched, heq]
        exact hall hskipped (key, record) (KeyMap.mem_entries_iff.mpr hrecord)

theorem inStep_outcome (h : InStep p) (houtcome : Outcome (EngineTunnel.backend e) p call reply q)
    (hwrite : MayWrite p call reply) : InStep q := by
  by_cases hreply : reply = .started
  · subst hreply
    cases call with
    | start config => exact (inStep_started houtcome).1
    | stop | register | insertClient | eraseClient | clients => cases houtcome
  · exact (keeps_outcome h houtcome hwrite hreply).inStep

/-! ## Lists of calls -/

theorem mayWrite_of_writeSucceeds {b : Backend (EngineTunnel δ × ω)}
    (h : p.writeSucceeds b call = true) : MayWrite p call (p.perform b call).1 := by
  intro hdone peers hwrites
  simpa only [writeSucceeds, hdone, hwrites, Bool.false_or, Option.all_some] using h

/-- **Every list of calls keeps a control plane and its backend in step.** -/
theorem inStep_serve {calls : List Call} (h : InStep p)
    (hwrites : p.writesSucceed (EngineTunnel.backend e) calls = true) :
    InStep (p.serve (EngineTunnel.backend e) calls).2 := by
  induction calls generalizing p with
  | nil => exact h
  | cons call calls ih =>
      simp only [writesSucceed, Bool.and_eq_true] at hwrites
      have hcall := outcome_perform (EngineTunnel.backend e) p call
      exact ih (inStep_outcome h hcall (mayWrite_of_writeSucceeds hwrites.1)) hwrites.2

/-- Calls that start nothing leave every record its peer. -/
theorem complete_serve {calls : List Call} (h : InStep p)
    (hcomplete : p.running.isSome = true → Complete p)
    (hwrites : p.writesSucceed (EngineTunnel.backend e) calls = true)
    (hreplies : ∀ reply ∈ (p.serve (EngineTunnel.backend e) calls).1, reply ≠ .started)
    (hrunning : (p.serve (EngineTunnel.backend e) calls).2.running.isSome = true) :
    Complete (p.serve (EngineTunnel.backend e) calls).2 := by
  induction calls generalizing p with
  | nil => exact hcomplete hrunning
  | cons call calls ih =>
      simp only [writesSucceed, Bool.and_eq_true] at hwrites
      have hcall := outcome_perform (EngineTunnel.backend e) p call
      have hkeeps := keeps_outcome h hcall (mayWrite_of_writeSucceeds hwrites.1)
        (hreplies _ List.mem_cons_self)
      exact ih hkeeps.inStep (hkeeps.complete hcomplete) hwrites.2
        (fun reply hreply => hreplies reply (List.mem_cons_of_mem _ hreply)) hrunning

/-- A control plane that was just opened is in step with its fresh backend. -/
theorem inStep_openAt {host : Host} {path : Path} {config : PoolConfig} {w : ω}
    (hopen : openAt host path config (({}, w) : EngineTunnel δ × ω) = .ok p) : InStep p := by
  obtain ⟨registry, disk, pool, -, -, rfl⟩ := openAt_eq_ok hopen
  exact ⟨rfl, rfl, fun _ => rfl, fun _ _ hpeer => by cases hpeer⟩

/-- **A control plane stays in step with its backend and its registry**, whatever the engine does.
It runs exactly while the backend does; while it is stopped the backend knows no peers; while it
runs every peer of the backend has a record under its key and that record's address alone; and
when the last start passed over no record, every record has a peer. -/
theorem plane_stays_in_step (e : Engine ω δ) {host : Host} {path : Path} {config : PoolConfig}
    {w : ω} {p : Plane (EngineTunnel δ × ω)} (hopen : openAt host path config ({}, w) = .ok p)
    (calls : List Call)
    (hwrites : p.writesSucceed (EngineTunnel.backend e) calls = true) :
    let b := EngineTunnel.backend e
    let q := (p.serve b calls).2
    q.running.isSome = b.isRunning q.backend ∧
      (q.running = none → b.knownPeers q.backend = []) ∧
      (q.running.isSome = true → ∀ peer ∈ b.knownPeers q.backend, ∃ record,
        q.registry.peers.get? peer.publicKey = some record ∧
          peer.allowedAddresses = [record.allowedAddress]) ∧
      ∀ (before after : List Call) (settings : TunnelSettings),
        calls = before ++ .start settings :: after →
        let s := (p.serve b before).2
        let t := s.perform b (.start settings)
        t.1 = .started → passedOver b s settings = 0 →
        (∀ reply ∈ (t.2.serve b after).1, reply ≠ .started) → q.running.isSome = true →
        ∀ key record, q.registry.peers.get? key = some record →
          ∃ peer ∈ b.knownPeers q.backend, peer.publicKey = key := by
  intro b q
  have hstep : InStep q := inStep_serve (inStep_openAt hopen) hwrites
  refine ⟨hstep.running_eq, fun hstopped => ?_, fun _ peer hpeer => ?_, ?_⟩
  · have hdown := hstep.running_eq
    rw [hstopped] at hdown
    show q.backend.1.peers.values = []
    rw [hstep.peers_of_stopped hdown.symm]
    rfl
  · obtain ⟨key, hkey⟩ := KeyMap.mem_values_iff.mp hpeer
    obtain ⟨record, hrecord, rfl⟩ := hstep.recorded key peer hkey
    exact ⟨record, hrecord, rfl⟩
  · rintro before after settings rfl s t hstarted hnone hreplies hrunning key record hrecord
    rw [writesSucceed_append, Bool.and_eq_true] at hwrites
    have hwrites' := hwrites.2
    simp only [writesSucceed, Bool.and_eq_true] at hwrites'
    have houtcome := outcome_perform b s (.start settings)
    have hq : q = (t.2.serve b after).2 := by
      simp only [q, t, serve_append, serve]
      rfl
    rw [show (s.perform b (.start settings)).1 = .started from hstarted] at houtcome
    obtain ⟨hstep', hcomplete⟩ := inStep_started houtcome
    -- no later call has started the plane anew, so that completeness is kept up to the end
    rw [hq] at hrunning hrecord ⊢
    obtain ⟨peer, hpeer⟩ :=
      complete_serve hstep' (fun _ => hcomplete hnone) hwrites'.2 hreplies hrunning key record hrecord
    obtain ⟨found, -, heq⟩ := (hq ▸ hstep).recorded key peer hpeer
    exact ⟨peer, KeyMap.mem_values_iff.mpr ⟨key, hpeer⟩, by rw [heq]⟩

/-- A plane is stopped and started again after a client has registered: the engine takes the client
back, and the record has its peer. -/
theorem plane_in_step_after_second_start :
    let key := "xTIBA5rboUvnH4htodjb6e697QjLERt1NAB4mZqp8Dg="
    let before : List Call := [.start trialSettings, .register key, .stop 5]
    ∃ p, openAt (trialHost [none]) trialPath trialPool ({}, {}) = .ok p ∧
      let q := (p.serve (EngineTunnel.backend Stage.engine) (before ++ [.start trialSettings])).2
      (p.serve (EngineTunnel.backend Stage.engine) before).2.running = none ∧
        q.running.isSome = true ∧ q.registry.peers.keys = [key] ∧
        ∀ k record, q.registry.peers.get? k = some record →
          ∃ peer ∈ (EngineTunnel.backend Stage.engine).knownPeers q.backend, peer.publicKey = k := by
  intro key before
  let p : Plane (EngineTunnel String × Stage) := trial ({}, {}) []
  have hopen : openAt (trialHost [none]) trialPath trialPool ({}, {}) = .ok p := openAt_trial _ []
  have hrunning : (p.serve (EngineTunnel.backend Stage.engine)
      (before ++ [.start trialSettings])).2.running.isSome = true := by decide +kernel
  have hstep := plane_stays_in_step Stage.engine hopen (before ++ [.start trialSettings])
    (by decide +kernel)
  have hstarted : ((p.serve (EngineTunnel.backend Stage.engine) before).2.perform
      (EngineTunnel.backend Stage.engine) (.start trialSettings)).1 = .started := by decide +kernel
  have hnone : passedOver (EngineTunnel.backend Stage.engine)
      (p.serve (EngineTunnel.backend Stage.engine) before).2 trialSettings = 0 := by decide +kernel
  have hlast := hstep.2.2.2 before [] trialSettings rfl hstarted hnone (by simp [serve]) hrunning
  exact ⟨p, hopen, by decide +kernel, hrunning, by decide +kernel, hlast⟩

end Plane

end OverlayVpn
