import OverlayVpn.Proofs.Control.Restart
import OverlayVpn.Proofs.Key

set_option autoImplicit false

/-! # One record for each tunnel identity

The registry knows clients by the texts of their keys, the engine by the keys that these stand for.
Blanks around a key do not count for the engine but do for the registry, so that one client can be
registered twice, and removing one record then takes the peer from the other. Where no call adds a
key with blanks around it, the two agree (`Identified.eq_of_read`): a key has one spelling, so that
different records are those of different peers. -/

namespace OverlayVpn

namespace Plane

/-! ## Keys without blanks around them -/

section

variable {β : Type} {b : Backend β} {p q : Plane β} {call : Call} {reply : Reply} {key : String}

/-- Every key of the registry is one, and has no blanks around it. -/
def Identified (p : Plane β) : Prop :=
  ∀ key record, p.registry.peers.get? key = some record →
    Key.check key = .ok () ∧ Text.trim key = key

/-- A call that adds a client and does not fail has found its key to be one. -/
theorem check_of_added (houtcome : Outcome b p call reply q) (hdone : reply.isFailed = false)
    (hadded : call.added? = some key) : Key.check key = .ok () := by
  cases houtcome with
  | refused | startFailed | knownFailed | exhausted | registerFailed | insertFailed | eraseFailed =>
      cases hdone
  | started | idle | stopped | aborted | erased | clients => cases hadded
  | known hrunning hrecord htold hkey =>
      obtain rfl := Option.some.inj hadded
      exact hkey
  | registered hrunning hrecord hlease htold hq hkey =>
      obtain rfl := Option.some.inj hadded
      exact hkey
  | inserted hrunning hhost hrecord htold hkey =>
      obtain rfl := Option.some.inj hadded
      exact hkey

/-- **A call adds no key with blanks around it**, unless it was given one. -/
theorem identified_outcome (h : Identified p) (houtcome : Outcome b p call reply q)
    (hcall : ∀ key, call.added? = some key → Text.trim key = key) : Identified q := by
  intro key record hrecord
  rcases registry_outcome houtcome with ⟨hregistry, -⟩ | ⟨peers, hdone, hwrites, -, hregistry⟩
  · rw [hregistry] at hrecord
    exact h key record hrecord
  · rw [hregistry] at hrecord
    rcases Registry.commit_cases p.registry p.host.disk peers with ⟨disk', -, heq⟩ |
      ⟨error, disk', -, heq⟩
    · rw [heq] at hrecord
      have hfound : peers.get? key = some record := hrecord
      rcases writes_cases hwrites with ⟨other, added, hadded, -, rfl⟩ | ⟨other, -, rfl⟩
      · rw [KeyMap.get?_insert] at hfound
        split at hfound
        · next hkey =>
            rw [hkey]
            exact ⟨check_of_added houtcome hdone hadded, hcall other hadded⟩
        · exact h key record hfound
      · rw [KeyMap.get?_erase] at hfound
        split at hfound
        · cases hfound
        · exact h key record hfound
    · rw [heq] at hrecord
      exact h key record hrecord

theorem identified_serve (h : Identified p) {calls : List Call}
    (hcalls : ∀ call ∈ calls, ∀ key, call.added? = some key → Text.trim key = key) :
    Identified (p.serve b calls).2 := by
  induction calls generalizing p with
  | nil => exact h
  | cons call calls ih =>
      have hnext := identified_outcome h (outcome_perform b p call) (hcalls call List.mem_cons_self)
      exact ih hnext fun call' hcall' => hcalls call' (List.mem_cons_of_mem _ hcall')

/-- **Different records are those of different keys.** -/
theorem Identified.eq_of_read (h : Identified p) {key₁ key₂ : String} {k : Key}
    (h₁ : p.registry.peers.contains key₁ = true) (h₂ : p.registry.peers.contains key₂ = true)
    (hread₁ : Key.read key₁ = .ok k) (hread₂ : Key.read key₂ = .ok k) : key₁ = key₂ := by
  obtain ⟨record₁, hrecord₁⟩ := Option.isSome_iff_exists.mp h₁
  obtain ⟨record₂, hrecord₂⟩ := Option.isSome_iff_exists.mp h₂
  calc key₁ = Text.trim key₁ := (h key₁ record₁ hrecord₁).2.symm
    _ = Text.trim key₂ := Key.trim_eq_of_read hread₁ hread₂
    _ = key₂ := (h key₂ record₂ hrecord₂).2

end

/-! ## Removing a client -/

variable {ω δ : Type} {e : Engine ω δ} {peersOf : δ → ω → KeyMap Engine.PeerEntry}
  {p : Plane (EngineTunnel δ × ω)} {device : δ}

/-- **A client that is removed is dropped by the device**, and no other is. -/
theorem dropped_by_eraseClient (hobeys : e.Obeys peersOf) (hrunning : p.running.isSome = true)
    (hup : p.backend.1.running = true) (hdevice : p.backend.1.device = some device) {key : String}
    {k : Key} (hread : Key.read key = .ok k) :
    let r := p.perform (EngineTunnel.backend e) (.eraseClient key)
    r.1 = .erased ∧ peersOf device r.2.backend.2 =
      Engine.PeerTable.apply (peersOf device p.backend.2) (Engine.dropBody k) := by
  intro r
  obtain ⟨w, hdropped, happlies⟩ := EngineTunnel.erasePeer_of_obeys hobeys hup hdevice hread
  have houtcome : Outcome (EngineTunnel.backend e) p (.eraseClient key) r.1 r.2 :=
    outcome_perform (EngineTunnel.backend e) p (.eraseClient key)
  generalize r.1 = reply at houtcome
  generalize r.2 = q at houtcome
  cases houtcome with
  | refused hrefusal =>
      simp only [refusal, Option.isNone_eq_false_iff.mpr hrunning, Bool.false_eq_true,
        if_false] at hrefusal
      cases hrefusal
  | eraseFailed hrunning hfailed =>
      rw [hdropped] at hfailed
      cases hfailed
  | erased hrunning hdone =>
      rw [hdropped] at hdone
      obtain rfl := (Prod.mk.inj hdone).2
      rw [backend_released, backend_struck]
      exact ⟨rfl, happlies⟩

/-- **One client, one record.** Open a control plane whose registry is empty, and let it answer any
calls, none of which adds a client under a key with blanks around it. The keys of the registry are
then those of different peers, whatever the engine does. While the plane runs, and its engine obeys,
a client of the registry can be removed: the device drops the peer of that client, and has all other
peers as they were, those of other records among them. -/
theorem one_record_per_identity (e : Engine ω δ) {host : Host} {path : Path} {config : PoolConfig}
    {w : ω} (hopen : openAt host path config ({}, w) = .ok p) (hempty : p.registry.peers = ∅)
    (calls : List Call)
    (hcalls : ∀ call ∈ calls, ∀ key, call.added? = some key → Text.trim key = key) :
    let b := EngineTunnel.backend e
    let q := (p.serve b calls).2
    (∀ key₁ key₂ k, q.registry.peers.contains key₁ = true → q.registry.peers.contains key₂ = true →
      Key.read key₁ = .ok k → Key.read key₂ = .ok k → key₁ = key₂) ∧
    ∀ key, q.registry.peers.contains key = true → ∃ k, Key.read key = .ok k ∧
      (∀ other k', q.registry.peers.contains other = true → other ≠ key →
        Key.read other = .ok k' → k'.hex ≠ k.hex) ∧
      ∀ peersOf, e.Obeys peersOf → q.running.isSome = true →
        ∃ device, q.backend.1.device = some device ∧
          let r := q.perform b (.eraseClient key)
          r.1 = .erased ∧ ∀ hex, (peersOf device r.2.backend.2).get? hex =
            if hex = k.hex then none else (peersOf device q.backend.2).get? hex := by
  intro b q
  have hstart : Identified p := by
    intro key record hrecord
    rw [hempty] at hrecord
    cases hrecord
  have hidentified : Identified q := identified_serve hstart hcalls
  have hsteady : Steady q := steady_serve (steady_openAt hopen) calls
  refine ⟨fun key₁ key₂ k h₁ h₂ => hidentified.eq_of_read h₁ h₂, fun key hkey => ?_⟩
  obtain ⟨record, hrecord⟩ := Option.isSome_iff_exists.mp hkey
  obtain ⟨k, hread⟩ := Key.exists_of_check (hidentified key record hrecord).1
  refine ⟨k, hread, fun other k' hother hne hread' hhex => ?_, fun peersOf hobeys hrunning => ?_⟩
  · obtain rfl := Key.hex_inj hhex
    exact hne (hidentified.eq_of_read hother hkey hread' hread)
  · obtain ⟨hup, hsome⟩ := hsteady.orderly.up hrunning
    obtain ⟨device, hdevice⟩ := Option.isSome_iff_exists.mp hsome
    obtain ⟨herased, happlies⟩ := dropped_by_eraseClient hobeys hrunning hup hdevice hread
    refine ⟨device, hdevice, herased, fun hex => ?_⟩
    rw [happlies, Engine.get?_dropBody]

/-- Two clients register, and the second is removed: its peer goes, and the first one's stays. -/
theorem one_record_per_identity_of_two :
    let b := EngineTunnel.backend Engine.bare
    let key₁ := "xTIBA5rboUvnH4htodjb6e697QjLERt1NAB4mZqp8Dg="
    let key₂ := "HIgo9xNzJMWLKASShiTqIybxZ0U3wGLiUeJ1PKf8ykw="
    let calls : List Call := [.start trialSettings, .register key₁, .register key₂]
    ∃ p : Plane (EngineTunnel Unit × KeyMap Engine.PeerEntry),
      openAt (trialHost [none]) trialPath trialPool ({}, ∅) = .ok p ∧
      let q := (p.serve b calls).2
      let r := q.perform b (.eraseClient key₂)
      q.registry.peers.keys = [key₂, key₁] ∧ ∃ k₁ k₂, Key.read key₁ = .ok k₁ ∧
        Key.read key₂ = .ok k₂ ∧ r.1 = .erased ∧
          r.2.backend.2.get? k₁.hex = q.backend.2.get? k₁.hex ∧ r.2.backend.2.get? k₂.hex = none := by
  intro b key₁ key₂ calls
  let p : Plane (EngineTunnel Unit × KeyMap Engine.PeerEntry) := trial ({}, ∅) []
  have hopen : openAt (trialHost [none]) trialPath trialPool ({}, ∅) = .ok p := openAt_trial _ []
  have htrimmed : ∀ call ∈ calls, ∀ key, call.added? = some key → Text.trim key = key := by
    have hall : ∀ call ∈ calls, call.added?.all (fun key => Text.trim key = key) = true := by
      decide +kernel
    intro call hcall key hadded
    have hkey := hall call hcall
    rw [hadded] at hkey
    exact of_decide_eq_true hkey
  obtain ⟨hrunning, hkeys⟩ : let q := (p.serve b calls).2
      q.running.isSome = true ∧ q.registry.peers.keys = [key₂, key₁] := by decide +kernel
  have hempty : p.registry.peers = ∅ := rfl
  clear_value p calls
  obtain ⟨-, hremove⟩ :=
    one_record_per_identity Engine.bare hopen hempty calls htrimmed
  have hknown₁ : (p.serve b calls).2.registry.peers.contains key₁ = true := by
    rw [KeyMap.contains_iff_mem_keys, hkeys]
    simp
  have hknown₂ : (p.serve b calls).2.registry.peers.contains key₂ = true := by
    rw [KeyMap.contains_iff_mem_keys, hkeys]
    simp
  obtain ⟨k₁, hread₁, -⟩ := hremove key₁ hknown₁
  obtain ⟨k₂, hread₂, hothers, herase⟩ := hremove key₂ hknown₂
  obtain ⟨device, -, herased, hpeers⟩ := herase _ Engine.bare_obeys hrunning
  have hne : k₁.hex ≠ k₂.hex := hothers key₁ k₁ hknown₁ (by decide) hread₁
  exact ⟨p, hopen, hkeys, k₁, k₂, hread₁, hread₂, herased, (hpeers k₁.hex).trans (if_neg hne),
    (hpeers k₂.hex).trans (if_pos rfl)⟩

/-- A client that registers a second time with a blank before its key has two records. When one of
them is removed the other stays, and the device has no peer for it any more. -/
theorem two_records_of_one_identity :
    let b := EngineTunnel.backend Engine.bare
    let key := "xTIBA5rboUvnH4htodjb6e697QjLERt1NAB4mZqp8Dg="
    let blank := " xTIBA5rboUvnH4htodjb6e697QjLERt1NAB4mZqp8Dg="
    let calls : List Call := [.start trialSettings, .register key, .register blank]
    let q := ((trial ({}, ∅) [] : Plane (EngineTunnel Unit × KeyMap Engine.PeerEntry)).serve b
      calls).2
    let r := q.perform b (.eraseClient blank)
    q.registry.peers.keys = [blank, key] ∧ r.1 = .erased ∧ r.2.registry.peers.keys = [key] ∧
      ∃ k, Key.read blank = .ok k ∧ Key.read key = .ok k ∧ r.2.backend.2.get? k.hex = none := by
  intro b key blank calls q r
  obtain ⟨hkeys, herased, hleft, hcheck, hsame⟩ :
      q.registry.peers.keys = [blank, key] ∧ r.1 = .erased ∧ r.2.registry.peers.keys = [key] ∧
        Key.check key = .ok () ∧ Key.read blank = Key.read key := by decide +kernel
  obtain ⟨hrunning, hup, hdevice⟩ : q.running.isSome = true ∧ q.backend.1.running = true ∧
      q.backend.1.device = some () := by decide +kernel
  obtain ⟨k, hread⟩ := Key.exists_of_check hcheck
  have hblank : Key.read blank = .ok k := hsame.trans hread
  refine ⟨hkeys, herased, hleft, k, hblank, hread, ?_⟩
  -- the engine's table is not computed: what a removal does to it is known
  clear_value q
  obtain ⟨-, hpeers⟩ := dropped_by_eraseClient Engine.bare_obeys hrunning hup hdevice hblank
  exact (congrArg (KeyMap.get? · k.hex) hpeers).trans (by rw [Engine.get?_dropBody, if_pos rfl])

end Plane

end OverlayVpn
