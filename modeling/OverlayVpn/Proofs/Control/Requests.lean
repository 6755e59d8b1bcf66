import OverlayVpn.Proofs.Control.Alike
import OverlayVpn.Proofs.Control.Roster
import OverlayVpn.Proofs.Key
import OverlayVpn.Proofs.Text.Blank
import OverlayVpn.Proofs.Tunnel.Requests

set_option autoImplicit false

/-! # Requests about clients keep to their lines

A control plane sends its engine a body for each client that it adds or removes: the client's key on
one line, and on the next an address that it is allowed, or its removal. Addresses that the control
plane hands out or is asked for are written by itself. Those of the registry it sends as they stand in
the file, so that each request keeps to its two lines unless an address in the file has a line break
(`requests_keep_to_their_lines`). -/

namespace OverlayVpn

namespace Engine

open Text

/-! ## Bodies and their lines -/

/-- A body about one peer: a line with the key and a line with an allowed address or the removal. -/
def IsPeerBody (body : String) : Prop :=
  ∃ hex setting, hex.length = 64 ∧ (∀ c ∈ hex.toList, c ∈ "0123456789abcdef".toList) ∧
    (setting = "remove=true" ∨ ∃ cidr, '\n' ∉ cidr.toList ∧ setting = "allowed_ip=" ++ cidr) ∧
    body = "public_key=" ++ hex ++ "\n" ++ setting ++ "\n"

/-- The first blank line of a request is the one that ends it. -/
def EndsAtBlank (request : String) : Prop :=
  ∃ lines, (∀ line ∈ lines, line ≠ "") ∧ splitOn '\n' request = lines ++ ["", ""]

theorem allowBody_eq (key : Key) (cidr : String) :
    allowBody key cidr = "public_key=" ++ key.hex ++ "\n" ++ ("allowed_ip=" ++ cidr) ++ "\n" := by
  apply String.toList_inj.mp
  simp [allowBody, toList_body, Setting.toList_line, Setting.name, Setting.value]

theorem dropBody_eq (key : Key) :
    dropBody key = "public_key=" ++ key.hex ++ "\n" ++ "remove=true" ++ "\n" := by
  apply String.toList_inj.mp
  simp [dropBody, toList_body, Setting.toList_line, Setting.name, Setting.value]

theorem isPeerBody_allow (key : Key) {cidr : String} (h : '\n' ∉ cidr.toList) :
    IsPeerBody (allowBody key cidr) :=
  ⟨key.hex, "allowed_ip=" ++ cidr, key.length_hex, fun _ => Key.mem_hex, Or.inr ⟨cidr, h, rfl⟩,
    allowBody_eq key cidr⟩

theorem isPeerBody_drop (key : Key) : IsPeerBody (dropBody key) :=
  ⟨key.hex, "remove=true", key.length_hex, fun _ => Key.mem_hex, Or.inl rfl, dropBody_eq key⟩

/-- **A body about one peer makes a request that ends at its first blank line.** -/
theorem IsPeerBody.endsAtBlank {body : String} (h : IsPeerBody body) :
    EndsAtBlank (setRequest body) := by
  obtain ⟨hex, setting, -, hhex, hsetting, rfl⟩ := h
  have hkey : '\n' ∉ ("public_key=" ++ hex).toList := by
    rw [String.toList_append, List.mem_append, not_or]
    refine ⟨by decide, fun hmem => ?_⟩
    exact absurd (hhex _ hmem) (by decide)
  have hline : '\n' ∉ setting.toList ∧ setting ≠ "" := by
    rcases hsetting with rfl | ⟨cidr, hcidr, rfl⟩
    · decide
    · constructor
      · rw [String.toList_append, List.mem_append, not_or]
        exact ⟨by decide, hcidr⟩
      · simp
  have hrequest : (setRequest ("public_key=" ++ hex ++ "\n" ++ setting ++ "\n")).toList =
      (["set=1", "public_key=" ++ hex, setting, ""].map String.toList).flatMap (· ++ ['\n']) := by
    simp [setRequest]
  have hbreak : ∀ line ∈ ["set=1", "public_key=" ++ hex, setting, ""], '\n' ∉ line.toList := by
    simp only [List.forall_mem_cons]
    exact ⟨by decide, hkey, hline.1, by decide, by simp⟩
  refine ⟨["set=1", "public_key=" ++ hex, setting], by simp [hline.2], ?_⟩
  rw [splitOn, hrequest, pieces_ended (List.forall_mem_map.mpr hbreak), List.map_append,
    List.map_map]
  simp only [Function.comp_def, String.ofList_toList, List.map_id']
  rfl

/-- Before its last two pieces a request that ends at its first blank line has no blank line. -/
theorem EndsAtBlank.forall_ne {request : String} (h : EndsAtBlank request) :
    ∀ line ∈ (splitOn '\n' request).dropLast.dropLast, line ≠ "" := by
  obtain ⟨lines, hne, hsplit⟩ := h
  have htwo : lines ++ ["", ""] = lines ++ [""] ++ [""] := by simp
  rw [hsplit, htwo, List.dropLast_concat, List.dropLast_concat]
  exact hne

/-- The body of a start is none about a peer. -/
theorem startBody_ne {body : String} (h : body.toList[1]? = some 'u') (key : Key) (port : UInt16) :
    body ≠ Engine.body [.privateKey key, .listenPort port] := by
  rintro rfl
  have hstart : (Engine.body [.privateKey key, .listenPort port]).toList[1]? = some 'r' := by
    rw [toList_body, List.flatMap_cons, Setting.toList_line]
    simp [Setting.name]
  rw [hstart] at h
  cases h

end Engine

namespace Plane

open Engine

variable {ω δ : Type} {e : Engine ω δ}

/-! ## What calls send -/

/-- The bodies that calls may send when the addresses in the registry's file are among the known. -/
inductive Sent (known : String → Prop) (calls : List Call) : String → Prop where
  | start {config : TunnelSettings} {key : Key} (hcall : .start config ∈ calls)
      (hkey : Key.read config.privateKey = .ok key) :
      Sent known calls (body [.privateKey key, .listenPort config.listenPort])
  | allow (key : Key) {address : String}
      (h : known address ∨ ∃ host, address = (Network.host host).text) :
      Sent known calls (allowBody key address)
  | drop (key : Key) : Sent known calls (dropBody key)

/-- Every client's address is known, or is that of a host. -/
def Addressed {β : Type} (known : String → Prop) (p : Plane β) : Prop :=
  ∀ key record, p.registry.peers.get? key = some record →
    known record.allowedAddress ∨ ∃ host, record.allowedAddress = (Network.host host).text

section

variable {β : Type} {b : Backend β} {p q : Plane β} {known : String → Prop} {call : Call}
  {reply : Reply}

theorem Addressed.recorded (h : p.Addressed known) {key : String} {host : Ipv4}
    (hrecord : ∀ record, p.registry.peers.get? key = some record →
      record.allowedAddress = (Network.host host).text) :
    (p.recorded key (Network.host host).text).Addressed known := by
  cases hfound : p.registry.peers.get? key with
  | some record =>
      rw [recorded_of_known hfound (hrecord record hfound)]
      exact h
  | none =>
      rcases peers_recorded hfound (Network.host host).text with ⟨added, hadded, hpeers⟩ | hpeers
      · intro other record hother
        rw [hpeers, KeyMap.get?_insert] at hother
        split at hother
        · obtain rfl := Option.some.inj hother
          exact Or.inr ⟨host, hadded⟩
        · exact h other record hother
      · intro other record hother
        rw [hpeers] at hother
        exact h other record hother

theorem Addressed.struck (h : p.Addressed known) (key : String) :
    (p.struck key).Addressed known := by
  intro other record hother
  rcases peers_struck p key with hpeers | hpeers
  · rw [hpeers, KeyMap.get?_erase] at hother
    split at hother
    · cases hother
    · exact h other record hother
  · rw [hpeers] at hother
    exact h other record hother

/-- **What a call writes down is an address that was known or one of a host.** -/
theorem addressed_outcome (h : p.Addressed known) (houtcome : Outcome b p call reply q) :
    q.Addressed known := by
  cases houtcome with
  | refused | startFailed | started | idle | stopped | aborted | knownFailed | known | exhausted
  | insertFailed | eraseFailed | clients => exact h
  | registerFailed =>
      intro key record
      rw [registry_released]
      exact h key record
  | @registered key running address backend q hrunning hrecord hlease htold hq hkey =>
      have hleased : { p.lease.2 with backend }.Addressed known := h
      have hrecorded : q.Addressed known := by
        rw [hq]
        refine hleased.recorded fun record hfound => ?_
        have hnone : { p.lease.2 with backend }.registry.peers.get? key = none := hrecord
        rw [hnone] at hfound
        cases hfound
      intro other record
      rw [registry_registeredAt]
      exact hrecorded other record
  | @inserted key address host backend hrunning hhost hrecord htold hkey =>
      have hsame : { p with backend }.Addressed known := h
      exact hsame.recorded hrecord
  | @erased key backend hrunning hdropped =>
      have hsame : { p with backend }.Addressed known := h
      intro other record
      rw [registry_released]
      exact hsame.struck key other record

end

variable {known : String → Prop} {calls : List Call}
  {p q : Plane (EngineTunnel (Nat × δ) × Diary ω)} {call : Call} {reply : Reply}

/-- Restoring clients sends requests that allow them their addresses. -/
theorem sends_restore {entries : List (String × RegisteredPeer)}
    {s : EngineTunnel (Nat × δ) × Diary ω} (h : Sends (Sent known calls) s.2.acts)
    (hentries : ∀ entry ∈ entries, known entry.2.allowedAddress ∨
      ∃ host, entry.2.allowedAddress = (Network.host host).text) :
    Sends (Sent known calls)
      (restore (EngineTunnel.backend e.journaled) entries s).2.2.acts := by
  induction entries generalizing s with
  | nil => exact h
  | cons entry entries ih =>
      obtain ⟨hentry, hrest⟩ := List.forall_mem_cons.mp hentries
      have hnext := EngineTunnel.sends_allowPeer (e := e) h (fun key => .allow key hentry) entry.1
      simp only [restore]
      exact ih hnext hrest

/-- **What a call sends.** -/
theorem sends_outcome (h : Sends (Sent known calls) p.backend.2.acts) (haddressed : p.Addressed known)
    (hcall : call ∈ calls)
    (houtcome : Outcome (EngineTunnel.backend e.journaled) p call reply q) :
    Sends (Sent known calls) q.backend.2.acts := by
  have htell {p' : Plane (EngineTunnel (Nat × δ) × Diary ω)} {key address : String}
      {told : Except BackendFault Unit} {backend : EngineTunnel (Nat × δ) × Diary ω}
      (hsent : Sends (Sent known calls) p'.backend.2.acts)
      (haddress : known address ∨ ∃ host, address = (Network.host host).text)
      (htold : (EngineTunnel.backend e.journaled).allowPeer key [address] p'.backend =
        (told, backend)) : Sends (Sent known calls) backend.2.acts := by
    have hallow := EngineTunnel.sends_allowPeer (e := e) hsent (fun key => .allow key haddress) key
    rw [htold] at hallow
    exact hallow
  have hstarted {config : TunnelSettings} (hconfig : call = .start config) :
      Sends (Sent known calls)
        ((EngineTunnel.backend e.journaled).start config p.backend).2.2.acts := by
    simp only [EngineTunnel.backend]
    exact EngineTunnel.sends_start h fun key hkey => .start (hconfig ▸ hcall) hkey
  have hstopped (limit : Option Nat) : Sends (Sent known calls)
      ((EngineTunnel.backend e.journaled).stop limit p.backend).2.2.acts := by
    simp only [EngineTunnel.backend]
    exact EngineTunnel.sends_stop h limit
  have herased (key : String) : Sends (Sent known calls)
      ((EngineTunnel.backend e.journaled).erasePeer key p.backend).2.2.acts := by
    simp only [EngineTunnel.backend]
    exact EngineTunnel.sends_erasePeer h .drop key
  cases houtcome with
  | refused | idle | exhausted | clients => exact h
  | @startFailed config fault backend hstopped hstart hvalid =>
      have hsent := hstarted rfl
      rw [hstart] at hsent
      exact hsent
  | @started config publicKey backend hstopped hvalid hstart =>
      have hsent := hstarted rfl
      rw [hstart] at hsent
      refine sends_restore hsent fun entry hentry => ?_
      exact haddressed entry.1 entry.2 (KeyMap.mem_entries_iff.mp hentry)
  | @stopped deadline backend hrunning hstop =>
      have hsent := hstopped (some deadline)
      rw [hstop] at hsent
      exact hsent
  | @aborted deadline ended backend hrunning hstop =>
      have hsent := hstopped (some deadline)
      rw [hstop] at hsent
      simp only [EngineTunnel.backend]
      exact EngineTunnel.sends_abort hsent
  | knownFailed hrunning hrecord htold hkey => exact htell h (haddressed _ _ hrecord) htold
  | known hrunning hrecord htold hkey => exact htell h (haddressed _ _ hrecord) htold
  | registerFailed hrunning hrecord hlease htold hkey =>
      rw [backend_released]
      exact htell h (Or.inr ⟨_, rfl⟩) htold
  | registered hrunning hrecord hlease htold hq hkey =>
      rw [backend_registeredAt, hq, backend_recorded]
      exact htell h (Or.inr ⟨_, rfl⟩) htold
  | insertFailed hrunning hhost hrecord htold hkey => exact htell h (Or.inr ⟨_, rfl⟩) htold
  | inserted hrunning hhost hrecord htold hkey => exact htell h (Or.inr ⟨_, rfl⟩) htold
  | @eraseFailed key fault backend hrunning hdropped =>
      have hsent := herased key
      rw [hdropped] at hsent
      exact hsent
  | @erased key backend hrunning hdropped =>
      have hsent := herased key
      rw [hdropped] at hsent
      rw [backend_released, backend_struck]
      exact hsent

/-- **What calls one after another send.** -/
theorem sends_serve (h : Sends (Sent known calls) p.backend.2.acts) (haddressed : p.Addressed known)
    {made : List Call} (hmade : ∀ call ∈ made, call ∈ calls) :
    Sends (Sent known calls)
      (p.serve (EngineTunnel.backend e.journaled) made).2.backend.2.acts := by
  induction made generalizing p with
  | nil => exact h
  | cons call made ih =>
      obtain ⟨hcall, hrest⟩ := List.forall_mem_cons.mp hmade
      have houtcome := outcome_perform (EngineTunnel.backend e.journaled) p call
      exact ih (sends_outcome h haddressed hcall houtcome) (addressed_outcome haddressed houtcome)
        hrest

/-! ## The journal of a control plane -/

/-- A control plane with a fresh backend that keeps a journal. -/
def noted (p : Plane (EngineTunnel δ × ω)) : Plane (EngineTunnel (Nat × δ) × Diary ω) where
  backend := ({}, { world := p.backend.2 })
  registry := p.registry
  allocator := p.allocator
  host := p.host
  running := p.running

/-- What is done to the engine of a control plane while it answers calls. -/
def acts (e : Engine ω δ) (p : Plane (EngineTunnel δ × ω)) (calls : List Call) : List Act :=
  (p.noted.serve (EngineTunnel.backend e.journaled) calls).2.backend.2.acts

variable {host : Host} {path : Path} {config : PoolConfig} {w : ω} {opened : Plane (EngineTunnel δ × ω)}

/-- **The journal is not noticed.** -/
theorem serve_noted (hopen : openAt host path config ({}, w) = .ok opened) :
    (opened.noted.serve (EngineTunnel.backend e.journaled) calls).1 =
      (opened.serve (EngineTunnel.backend e) calls).1 := by
  have hsound : opened.allocator.Sound := (orderly_openAt hopen).sound
  have hsame : opened.noted.Alike (EngineTunnel.Related (fun x w => x.world = w)
      fun numbered device => numbered.2 = device) Eq opened := by
    obtain ⟨registry, disk, pool, -, -, rfl⟩ := openAt_eq_ok hopen
    exact ⟨EngineTunnel.related_empty rfl,
      ⟨rfl, KeyMap.alike_refl (RegisteredPeer.alike_refl fun _ => rfl) registry.peers⟩,
      Allocator.alike_refl hsound, ⟨rfl, fun _ => rfl⟩, Option.Rel.none⟩
  have halike := (serve_alike (EngineTunnel.backend_alike (alike_journaled e)) hsame calls).1
  have heq := halike.imp fun _ _ h => h.eq fun _ _ h => h
  rwa [List.forall₂_eq_eq_eq] at heq

/-- **Requests about clients keep to their lines.** Open a control plane on any registry's file, and
let it answer any calls. Every body that its engine is sent is that of a start, with the settings of
the interface; or it is about one client, with the key on one line and on the next an allowed address
or the removal, so that the request ends at its first blank line; or it allows an address from the
file, as it stands there, that has a line break. -/
theorem requests_keep_to_their_lines (e : Engine ω δ)
    (hopen : openAt host path config ({}, w) = .ok opened) (calls : List Call) :
    (opened.noted.serve (EngineTunnel.backend e.journaled) calls).1 =
        (opened.serve (EngineTunnel.backend e) calls).1 ∧
      ∀ n body done, .set n body done ∈ acts e opened calls →
        (∃ config key, .start config ∈ calls ∧ Key.read config.privateKey = .ok key ∧
          body = Engine.body [.privateKey key, .listenPort config.listenPort]) ∨
        (IsPeerBody body ∧ EndsAtBlank (setRequest body)) ∨
        ∃ client record key, opened.registry.peers.get? client = some record ∧
          '\n' ∈ record.allowedAddress.toList ∧ body = allowBody key record.allowedAddress := by
  refine ⟨serve_noted hopen, fun n body done hbody => ?_⟩
  let known (address : String) : Prop := ∃ client record,
    opened.registry.peers.get? client = some record ∧ address = record.allowedAddress
  have haddressed : opened.noted.Addressed known := fun client record hrecord =>
    Or.inl ⟨client, record, hrecord, rfl⟩
  have hsent : Sent known calls body :=
    sends_serve sends_nil haddressed (fun _ h => h) n body done hbody
  cases hsent with
  | @start config key hcall hkey => exact Or.inl ⟨config, key, hcall, hkey, rfl⟩
  | drop key =>
      have hdrop := isPeerBody_drop key
      exact Or.inr (Or.inl ⟨hdrop, hdrop.endsAtBlank⟩)
  | @allow key address haddress =>
      by_cases hbreak : '\n' ∈ address.toList
      · rcases haddress with ⟨client, record, hrecord, rfl⟩ | ⟨host, rfl⟩
        · exact Or.inr (Or.inr ⟨client, record, key, hrecord, hbreak, rfl⟩)
        · -- addresses that the control plane writes have no line breaks
          exact absurd hbreak (onLine_allowedIp (.host host))
      · have hallow := isPeerBody_allow key hbreak
        exact Or.inr (Or.inl ⟨hallow, hallow.endsAtBlank⟩)

/-! ## Registries to try this on -/

/-- The key of a client. -/
def clientKey : String := "xTIBA5rboUvnH4htodjb6e697QjLERt1NAB4mZqp8Dg="

/-- A registry with one client at an address. -/
def lone (address : String) : Registry where
  path := trialPath
  peers := (∅ : KeyMap RegisteredPeer).insert clientKey
    ⟨clientKey, address, (trialHost []).clock.read.1⟩

/-- A host on which the registry's file has one client at an address. -/
def loneHost (address : String) : Host :=
  { trialHost [] with
    disk :=
      { nodes := [(["state"], .directory 0o755),
          (["state", "peers.json"], .file (Registry.contents (lone address).peers) 0o600)] } }

/-- The control plane that is opened on such a host. -/
def lonePlane (address : String) : Plane (EngineTunnel Unit × KeyMap PeerEntry) :=
  { trial ({}, ∅) [] with registry := lone address, host := loneHost address }

theorem openAt_lone {address : String}
    (h : Registry.openAt (loneHost address).disk trialPath =
      (.ok (lone address), (loneHost address).disk)) :
    openAt (loneHost address) trialPath trialPool ({}, ∅) = .ok (lonePlane address) := by
  simp only [openAt, Allocator.ofConfig, h, create_trialPool]
  rfl

/-- A client is restored, registers once more and is removed: four bodies are sent. -/
theorem requests_keep_to_their_lines_of_one :
    let p := lonePlane "10.0.0.2/32"
    let calls : List Call := [.start trialSettings, .register clientKey, .eraseClient clientKey]
    openAt (loneHost "10.0.0.2/32") trialPath trialPool ({}, ∅) = .ok p ∧
      ((acts Engine.bare p calls).filter fun act => act matches .set ..).length = 4 ∧
      ∀ n body done, .set n body done ∈ acts Engine.bare p calls →
        (∃ config key, .start config ∈ calls ∧ Key.read config.privateKey = .ok key ∧
          body = Engine.body [.privateKey key, .listenPort config.listenPort]) ∨
        (IsPeerBody body ∧ EndsAtBlank (setRequest body)) := by
  intro p calls
  have hopen : openAt (loneHost "10.0.0.2/32") trialPath trialPool ({}, ∅) = .ok p :=
    openAt_lone (by decide +kernel)
  have hbodies : ((acts Engine.bare p calls).filter fun act => act matches .set ..).length = 4 := by
    decide +kernel
  refine ⟨hopen, hbodies, fun n body done hbody => ?_⟩
  rcases (requests_keep_to_their_lines Engine.bare hopen calls).2 n body done hbody with
    hstart | hpeer | ⟨client, record, key, hrecord, hbreak, -⟩
  · exact Or.inl hstart
  · exact Or.inr hpeer
  · -- the one address in the file has no line break
    have hfound : ((∅ : KeyMap RegisteredPeer).insert clientKey
        ⟨clientKey, "10.0.0.2/32", (trialHost []).clock.read.1⟩).get? client = some record := hrecord
    rw [KeyMap.get?_insert] at hfound
    split at hfound
    · obtain rfl := Option.some.inj hfound
      exact absurd hbreak (by decide)
    · cases hfound

/-- An address after which a request of its own follows. -/
def addressAndMore : String :=
  "10.0.0.2/32\n\nset=1\n" ++
    "public_key=1c8828f7137324c58b2804928624ea2326f1674537c062e251e2753ca7fcca4c\n" ++
    "allowed_ip=0.0.0.0/0"

/-- **An address in the registry's file can hold a request of its own.** When the client is restored,
the request that allows it its address ends early, and another follows that allows a peer of no
client every address. -/
theorem address_holds_request :
    let p := lonePlane addressAndMore
    let calls : List Call := [.start trialSettings]
    openAt (loneHost addressAndMore) trialPath trialPool ({}, ∅) = .ok p ∧
      ∃ body, .set 0 body true ∈ acts Engine.bare p calls ∧
        (∀ key port, body ≠ Engine.body [.privateKey key, .listenPort port]) ∧
        ¬IsPeerBody body ∧ ¬EndsAtBlank (setRequest body) := by
  intro p calls
  have hopen : openAt (loneHost addressAndMore) trialPath trialPool ({}, ∅) = .ok p :=
    openAt_lone (by decide +kernel)
  let body : String :=
    "public_key=c53201039adba14be71f886da1d8dbe9eebded08cb111b75340078999aa9f038\nallowed_ip=" ++
      addressAndMore ++ "\n"
  have hsent : .set 0 body true ∈ acts Engine.bare p calls := by decide +kernel
  have hblank : "" ∈ (Text.splitOn '\n' (setRequest body)).dropLast.dropLast := by decide +kernel
  have hearly : ¬EndsAtBlank (setRequest body) := fun h => h.forall_ne "" hblank rfl
  exact ⟨hopen, body, hsent, startBody_ne (by decide +kernel), fun h => hearly h.endsAtBlank, hearly⟩

end Plane

end OverlayVpn
