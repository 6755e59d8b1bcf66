import OverlayVpn.Proofs.Client.Profile
import OverlayVpn.Proofs.Disk.Crash
import OverlayVpn.Proofs.Registry.Reopening

set_option autoImplicit false

/-! # State files survive crashes

The machine may stop during a change of a registry (`Registry.Stopped`) or while a profile is saved.
Either the file has been replaced by then or only preparations were made, which no reader of the
file notices. A registry that is opened afterwards is the one before the change or the one after it,
and behaves from then on as if the machine had not stopped (`Registry.makeAll_alike`); a profile
that is loaded afterwards is the one before or the one that was saved. -/

namespace OverlayVpn

namespace Registry

/-! ## Changes that are cut short -/

/-- The disks that the machine may leave when it stops during a change. -/
inductive Stopped (r : Registry) (host : Host) (change : Change) : Disk → Prop where
  /-- It stops before the file is touched. -/
  | untouched : Stopped r host change host.disk
  /-- It stops while the peers are written. -/
  | writing {peers : KeyMap RegisteredPeer} {clock : Clock} {a : Answer} {disk : Disk}
      (hplan : r.plan host.clock change = .write peers clock a)
      (h : host.disk.Interrupted r.path (contents peers) disk) : Stopped r host change disk

/-- **A change that is cut short has only been prepared, or it is done.** -/
theorem stopped_cases {r : Registry} {host : Host} {change : Change} {disk : Disk}
    (h : Stopped r host change disk) :
    Disk.Prepares r.path host.disk disk ∨ disk = (r.make host change).2.2.disk := by
  cases h with
  | untouched => exact Or.inl (.refl r.path host.disk)
  | writing hplan hinterrupted =>
      rcases Disk.interrupted_cases hinterrupted with hprepares | hreplaced
      · exact Or.inl hprepares
      · refine Or.inr ?_
        rw [make_of_write hplan, hreplaced]

/-! ## Changes on machines that are alike -/

/-- Two machines that changes of the registry at a path do not tell apart. -/
structure HostsAlike (path : Path) (x y : Host) : Prop where
  disk_alike : Disk.Alike path x.disk y.disk
  clock_eq : x.clock = y.clock

/-- **A change is answered alike on machines that are alike, and leaves them alike.** -/
theorem make_alike {r : Registry} {x y : Host} (h : HostsAlike r.path x y) (change : Change) :
    (r.make x change).1 = (r.make y change).1 ∧ (r.make x change).2.1 = (r.make y change).2.1 ∧
      HostsAlike r.path (r.make x change).2.2 (r.make y change).2.2 := by
  cases hplan : r.plan x.clock change with
  | answer a =>
      rw [make_of_answer hplan, make_of_answer (h.clock_eq ▸ hplan)]
      exact ⟨rfl, rfl, h⟩
  | write peers clock a =>
      obtain ⟨hresult, halike⟩ := h.disk_alike.replace (contents peers)
      rw [make_of_write hplan, make_of_write (h.clock_eq ▸ hplan)]
      cases hx : x.disk.replace r.path (contents peers) with
      | mk result disk =>
          cases hy : y.disk.replace r.path (contents peers) with
          | mk result' disk' =>
              rw [hx, hy] at hresult halike
              obtain rfl : result = result' := hresult
              cases result <;> exact ⟨rfl, rfl, halike, rfl⟩

/-- **Changes are answered alike on machines that are alike.** -/
theorem makeAll_alike {r : Registry} {x y : Host} (h : HostsAlike r.path x y)
    (changes : List Change) :
    (r.makeAll x changes).1 = (r.makeAll y changes).1 ∧
      (r.makeAll x changes).2.1 = (r.makeAll y changes).2.1 ∧
      HostsAlike r.path (r.makeAll x changes).2.2 (r.makeAll y changes).2.2 := by
  induction changes generalizing r x y with
  | nil => exact ⟨rfl, rfl, h⟩
  | cons change changes ih =>
      obtain ⟨hanswer, hregistry, halike⟩ := make_alike h change
      have hpath := path_make r x change
      obtain ⟨hanswers, hlast, hend⟩ := ih (hpath.symm ▸ halike)
      simp only [makeAll]
      rw [← hregistry, ← hanswer, ← hanswers, ← hlast]
      exact ⟨rfl, rfl, hpath ▸ hend⟩

/-! ## Openings -/

/-- The disk after openings that came to nothing, each with failures of its own in store. -/
def opened (path : Path) (disk : Disk) (tries : List (List (Option DiskFailure))) : Disk :=
  tries.foldl (fun disk failures => (openAt { disk with failures } path).2) disk

theorem prepares_opened (path : Path) (disk : Disk) (tries : List (List (Option DiskFailure))) :
    Disk.Prepares path disk (opened path disk tries) := by
  induction tries generalizing disk with
  | nil => exact .refl path disk
  | cons failures tries ih =>
      have hspent := Disk.Prepares.failures path disk failures
      have hcleared := Disk.prepares_discardTemp { disk with failures } path
      exact (hspent.trans hcleared).trans (ih _)

/-- **A registry whose file was only prepared for a change is opened as it was**, leaves no sibling,
and goes on as on a disk that was not prepared. -/
theorem Kept.reopens {r : Registry} {host : Host} {disk : Disk} (h : Kept r host.disk)
    (hprepares : Disk.Prepares r.path host.disk disk)
    (failures : List (Option DiskFailure)) :
    ∃ disk', openAt { disk with failures := none :: failures } r.path = (.ok r, disk') ∧
      (∀ bytes, disk'.read r.path.tempSibling ≠ .ok bytes) ∧
      ∀ failures clock later,
        let x := r.makeAll { disk := { disk' with failures }, clock } later
        let y := r.makeAll { disk := { host.disk with failures }, clock } later
        x.1 = y.1 ∧ x.2.1 = y.2.1 ∧ x.2.2.disk.read r.path = y.2.2.disk.read r.path := by
  obtain ⟨disk', hopen, hopened⟩ := (h.prepares hprepares).openAt_eq (none :: failures)
  refine ⟨disk', hopen, fun bytes hread => ?_, fun failures clock later => ?_⟩
  · -- the disk is the one that was cleared
    obtain rfl := congrArg Prod.snd hopen
    exact Disk.read_discardTemp rfl r.path bytes hread
  · have halike : HostsAlike r.path { disk := { disk' with failures }, clock }
        { disk := { host.disk with failures }, clock } :=
      ⟨(hprepares.trans hopened).alike h.clear failures, rfl⟩
    obtain ⟨hanswers, hregistry, hend⟩ := makeAll_alike halike later
    exact ⟨hanswers, hregistry, hend.disk_alike.read_eq⟩

end Registry

/-- A profile that is loaded after a save was cut short is the one before or the one that was
saved. -/
theorem Profile.load_of_interrupted {disk crashed : Disk} {path : Path} {found : Option Profile}
    (hclear : disk.Clear path) (hload : Profile.load disk path = .ok found) {p : Profile}
    (h : disk.Interrupted path p.contents crashed) :
    Profile.load crashed path = .ok found ∨ Profile.load crashed path = .ok (some p) := by
  rcases Disk.interrupted_cases h with hprepares | hreplaced
  · refine Or.inl ?_
    rw [← hload, Profile.load, Profile.load, hprepares.read_eq hclear]
  · refine Or.inr ?_
    simp only [Profile.load, Disk.read_replace hreplaced, Profile.read_contents]

/-- **State files survive crashes.** When the machine stops during a change of a registry, however
the registry was reached, and whatever openings were cut short after it, the registry can be opened:
it is the one before the change or the one after it, leaves no file beside its own, and answers all
later changes as if the machine had not stopped. When the machine stops while a profile is saved,
the profile that was there is loaded, or the new one. -/
theorem state_files_survive_crashes {disk : Disk} {path : Path} (hrooted : disk.Rooted)
    (hgrounded : disk.Grounded path) :
    (∀ r₀ disk₀, Registry.openAt disk path = (.ok r₀, disk₀) → ∀ clock changes change crashed,
      let before := (r₀.makeAll { disk := disk₀, clock } changes).2
      let after := (before.1.make before.2 change).2
      before.1.Stopped before.2 change crashed → ∀ tries failures, ∃ state disk',
        (state = before ∨ state = after) ∧
          Registry.openAt { Registry.opened path crashed tries with failures := none :: failures }
            path = (.ok state.1, disk') ∧
          (∀ bytes, disk'.read path.tempSibling ≠ .ok bytes) ∧
          ∀ failures clock later,
            let x := state.1.makeAll { disk := { disk' with failures }, clock } later
            let y := state.1.makeAll { disk := { state.2.disk with failures }, clock } later
            x.1 = y.1 ∧ x.2.1 = y.2.1 ∧ x.2.2.disk.read path = y.2.2.disk.read path) ∧
      ∀ found, Profile.load disk path = .ok found → ∀ p crashed,
        disk.Interrupted path (Profile.contents p) crashed →
          Profile.load crashed path = .ok found ∨ Profile.load crashed path = .ok (some p) := by
  constructor
  · intro r₀ disk₀ hopen clock changes change crashed before after hstopped tries failures
    obtain ⟨hkept₀, hpath₀⟩ := Registry.kept_openAt hrooted hgrounded hopen
    obtain ⟨hkept, hpath⟩ : Registry.Kept before.1 before.2.disk ∧ before.1.path = r₀.path :=
      Registry.Kept.makeAll hkept₀ changes
    have hsame : before.1.path = path := hpath.trans hpath₀
    rcases Registry.stopped_cases hstopped with hprepares | hdone
    · have hopened := hprepares.trans (Registry.prepares_opened before.1.path crashed tries)
      obtain ⟨disk', hagain⟩ := hkept.reopens hopened failures
      rw [hsame] at hagain
      exact ⟨before, disk', Or.inl rfl, hagain⟩
    · have hafter : Registry.Kept after.1 after.2.disk := hkept.make change
      have hpath' : after.1.path = path := (Registry.path_make _ _ change).trans hsame
      have hopened := Registry.prepares_opened after.1.path after.2.disk tries
      obtain ⟨disk', hagain⟩ := hafter.reopens hopened failures
      rw [hpath'] at hagain
      exact ⟨after, disk', Or.inr rfl, hdone ▸ hagain⟩
  · intro found hload p crashed hinterrupted
    have hclear := Profile.clear_of_load hrooted hgrounded hload
    exact Profile.load_of_interrupted hclear hload hinterrupted

/-- A profile to try saving with. -/
def trialProfile : Profile where
  clientPrivateKey := "YNqHbfBQKaGvzefSSLXYKoaaI9d6DvrULEgqXrtXUFc="
  clientPublicKey := "HIgo9xNzJMWLKASShiTqIybxZ0U3wGLiUeJ1PKf8ykw="
  serverPublicKey := "xTIBA5rboUvnH4htodjb6e697QjLERt1NAB4mZqp8Dg="
  serverEndpoint := "vpn.example.com:51820"
  assignedAddress := "10.0.0.2/32"
  serverTunnelAddress := Profile.defaultTunnelAddress
  registeredAt := Registry.midsummer

/-- The machine stops when five bytes of a second peer's registration have been written, or five
bytes of a profile. -/
theorem state_files_survive_partial_writes :
    let path : Path := ⟨["state", "peers.json"]⟩
    let before := (Registry.makeAll { path }
      { disk := .oneDirectory [], clock := .still Registry.midsummer } [.add "a" "10.0.0.2/32"]).2
    let change : Registry.Change := .add "b" "10.0.0.3/32"
    (∃ crashed, before.1.Stopped before.2 change crashed ∧
      (crashed.read path.tempSibling).toOption.map List.length = some 5 ∧
      ∃ state disk', (state = before ∨ state = (before.1.make before.2 change).2) ∧
        Registry.openAt { crashed with failures := [none] } path = (.ok state.1, disk') ∧
        ∀ bytes, disk'.read path.tempSibling ≠ .ok bytes) ∧
      ∃ crashed, (Disk.oneDirectory []).Interrupted path trialProfile.contents crashed ∧
        (Profile.load crashed path = .ok none ∨
          Profile.load crashed path = .ok (some trialProfile)) := by
  intro path before change
  -- the disk with a part of the profile
  let begun := ((Disk.oneDirectory []).performAll
    (Disk.directorySteps path ++ [.openTruncated path.tempSibling])).2
  let halfway :=
    (begun.appended (trialProfile.contents.take 5) path.tempSibling).toOption.getD begun
  have hbegun : (Disk.oneDirectory []).performAll
      (Disk.directorySteps path ++ [.openTruncated path.tempSibling]) = (.ok (), begun) := by
    decide +kernel
  have hhalfway : begun.appended (trialProfile.contents.take 5) path.tempSibling = .ok halfway := by
    decide +kernel
  have hnone : Profile.load (.oneDirectory []) path = .ok none := by decide +kernel
  have hinterrupted : (Disk.oneDirectory []).Interrupted path trialProfile.contents halfway :=
    Disk.interrupted_amid_write hbegun hhalfway
  -- the disk with a part of the second peer's registration
  let peers := before.1.peers.insert "b" ⟨"b", "10.0.0.3/32", before.2.clock.read.1⟩
  let opened := (before.2.disk.performAll
    (Disk.directorySteps before.1.path ++ [.openTruncated before.1.path.tempSibling])).2
  let part := (Registry.contents peers).take 5
  let crashed := (opened.appended part before.1.path.tempSibling).toOption.getD opened
  have hopened : before.2.disk.performAll
      (Disk.directorySteps before.1.path ++ [.openTruncated before.1.path.tempSibling]) =
        (.ok (), opened) := by decide +kernel
  have hwritten : opened.appended part before.1.path.tempSibling = .ok crashed := by
    decide +kernel
  have hget : before.1.peers.get? "b" = none := by decide +kernel
  have hlength : (crashed.read path.tempSibling).toOption.map List.length = some 5 := by
    decide +kernel
  have hopen : Registry.openAt (.oneDirectory []) path = (.ok { path }, .oneDirectory []) := by
    decide +kernel
  have hgrounded := Disk.grounded_of_descends (p := path) (by decide) (.oneDirectory [])
  have hplan : before.1.plan before.2.clock change = .write peers before.2.clock.read.2
      (.added ⟨"b", "10.0.0.3/32", before.2.clock.read.1⟩) := by
    simp only [change, Registry.plan, hget]
    rfl
  have hstopped : before.1.Stopped before.2 change crashed :=
    .writing hplan (Disk.interrupted_amid_write hopened hwritten)
  -- what was computed is not computed again
  clear_value crashed halfway
  obtain ⟨hregistry, hprofile⟩ :=
    state_files_survive_crashes (Disk.rooted_oneDirectory []) hgrounded
  obtain ⟨state, disk', hstate, hagain, hsibling, -⟩ := hregistry _ _ hopen
    (.still Registry.midsummer) [.add "a" "10.0.0.2/32"] change crashed hstopped [] []
  exact ⟨⟨crashed, hstopped, hlength, state, disk', hstate, hagain, hsibling⟩,
    halfway, hinterrupted, hprofile none hnone trialProfile halfway hinterrupted⟩

/-- A path that climbs out of a directory that is missing leads to another file when the machine has
stopped after the directory was made. -/
theorem stopped_registry_finds_another_file :
    let path : Path := ⟨["x", "..", "peers.json"]⟩
    let disk : Disk := { nodes := [(["peers.json"], .file [0x7b] 0o600)] }
    let crashed := disk.put ["x"] (.directory 0o700)
    Registry.openAt disk path = (.ok { path }, disk) ∧
      Registry.Stopped { path } { disk, clock := .still Registry.midsummer } (.add "a" "10.0.0.2/32")
        crashed ∧
      (Registry.openAt crashed path).1 = .error (.corrupt path .grammar) := by
  intro path disk crashed
  refine ⟨by decide +kernel, ?_, by decide +kernel⟩
  have hmade : disk.perform (.ensureDirectory ⟨["x", ".."]⟩) = (.ok (), crashed) := by
    decide +kernel
  exact .writing rfl (.during (.past hmade (.here _ _)))

end OverlayVpn
