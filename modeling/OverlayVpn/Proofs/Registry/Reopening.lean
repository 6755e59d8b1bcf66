import OverlayVpn.Proofs.Disk.Outcome
import OverlayVpn.Proofs.Registry

set_option autoImplicit false

/-! # A registry that is opened again

A change of a registry is planned in memory first (`plan`): it is answered at once and touches
nothing, or it writes peers to the file and memory follows when they are written (`make_cases`).
The file therefore says what memory holds and the way to it stays clear (`Kept`), whichever steps
of the writes fail, and whoever opens the file again finds what memory held
(`reopens_as_remembered`). -/

namespace OverlayVpn

namespace Registry

/-! ## Changes -/

/-- A change of the registered peers. -/
inductive Change where
  | add (key address : String)
  | remove (key : String)
  deriving DecidableEq

/-- The answer to a change. -/
inductive Answer where
  | added (record : RegisteredPeer)
  /-- The record is given back, if there was one. -/
  | removed (record : Option RegisteredPeer)
  | refused (fault : Fault)
  deriving DecidableEq

/-- Makes a change. -/
def make (r : Registry) (host : Host) : Change → Answer × Registry × Host
  | .add key address =>
    match r.add host key address with
    | (.ok record, rest) => (.added record, rest)
    | (.error fault, rest) => (.refused fault, rest)
  | .remove key =>
    match r.remove host key with
    | (.ok record, rest) => (.removed record, rest)
    | (.error fault, rest) => (.refused fault, rest)

/-- Makes changes one after another. -/
def makeAll (r : Registry) (host : Host) : List Change → List Answer × Registry × Host
  | [] => ([], r, host)
  | change :: changes =>
    let (answer, r, host) := r.make host change
    let (answers, rest) := makeAll r host changes
    (answer :: answers, rest)

/-- What a change comes to before the file is touched. -/
inductive Plan where
  /-- It is answered at once. -/
  | answer (a : Answer)
  /-- Peers are written, and it is answered when they are. -/
  | write (peers : KeyMap RegisteredPeer) (clock : Clock) (a : Answer)

/-- The plan of a change. -/
def plan (r : Registry) (clock : Clock) : Change → Plan
  | .add key address =>
    match r.peers.get? key with
    | some existing =>
      if existing.allowedAddress = address then .answer (.added existing)
      else .answer (.refused (.conflict key existing.allowedAddress))
    | none =>
      let record : RegisteredPeer := ⟨key, address, clock.read.1⟩
      .write (r.peers.insert key record) clock.read.2 (.added record)
  | .remove key =>
    match r.peers.get? key with
    | none => .answer (.removed none)
    | some record => .write (r.peers.erase key) clock (.removed (some record))

/-- **What a change does**: what its plan says, unless the file cannot be replaced. -/
theorem make_cases (r : Registry) (host : Host) (change : Change) :
    (∃ a, r.plan host.clock change = .answer a ∧ r.make host change = (a, r, host)) ∨
    ∃ peers clock a, r.plan host.clock change = .write peers clock a ∧
      ((∃ disk', host.disk.replace r.path (contents peers) = (.ok (), disk') ∧
          r.make host change = (a, { r with peers }, { disk := disk', clock })) ∨
        ∃ error disk', host.disk.replace r.path (contents peers) = (.error error, disk') ∧
          r.make host change = (.refused (.io r.path error), r, { disk := disk', clock })) := by
  cases change with
  | add key address =>
      rcases add_cases r host key address with ⟨record, hget, haddress, heq⟩ |
        ⟨record, hget, haddress, heq⟩ | ⟨hget, record, rfl, hwrite⟩
      · exact Or.inl ⟨.added record, by simp [plan, hget, haddress], by simp [make, heq]⟩
      · exact Or.inl ⟨.refused (.conflict key record.allowedAddress),
          by simp [plan, hget, haddress], by simp only [make, heq]⟩
      · refine Or.inr ⟨r.peers.insert key ⟨key, address, host.clock.read.1⟩, host.clock.read.2,
          .added ⟨key, address, host.clock.read.1⟩, by simp only [plan, hget], ?_⟩
        rcases hwrite with ⟨disk', hreplace, heq⟩ | ⟨error, disk', hreplace, heq⟩
        · exact Or.inl ⟨disk', hreplace, by simp only [make, heq]⟩
        · exact Or.inr ⟨error, disk', hreplace, by simp only [make, heq]⟩
  | remove key =>
      rcases remove_cases r host key with ⟨hget, heq⟩ | ⟨record, hget, hwrite⟩
      · exact Or.inl ⟨.removed none, by simp only [plan, hget], by simp only [make, heq]⟩
      · refine Or.inr ⟨r.peers.erase key, host.clock, .removed (some record),
          by simp only [plan, hget], ?_⟩
        rcases hwrite with ⟨disk', hreplace, heq⟩ | ⟨error, disk', hreplace, heq⟩
        · exact Or.inl ⟨disk', hreplace, by simp only [make, heq]⟩
        · exact Or.inr ⟨error, disk', hreplace, by simp only [make, heq]⟩

/-- A change that is answered at once touches nothing. -/
theorem make_of_answer {r : Registry} {host : Host} {change : Change} {a : Answer}
    (h : r.plan host.clock change = .answer a) : r.make host change = (a, r, host) := by
  rcases make_cases r host change with ⟨a', hanswer, heq⟩ | ⟨peers, clock, a', hwrite, -⟩
  · cases h.symm.trans hanswer
    exact heq
  · cases h.symm.trans hwrite

/-- A change that writes does so once. -/
theorem make_of_write {r : Registry} {host : Host} {change : Change} {a : Answer} {clock : Clock}
    {peers : KeyMap RegisteredPeer} (h : r.plan host.clock change = .write peers clock a) :
    r.make host change =
      match host.disk.replace r.path (contents peers) with
      | (.ok (), disk) => (a, { r with peers }, { disk, clock })
      | (.error error, disk) => (.refused (.io r.path error), r, { disk, clock }) := by
  rcases make_cases r host change with ⟨a', hanswer, -⟩ |
    ⟨peers', clock', a', hwrite, ⟨disk', hreplace, heq⟩ | ⟨error, disk', hreplace, heq⟩⟩
  · cases h.symm.trans hanswer
  · cases h.symm.trans hwrite
    rw [heq, hreplace]
  · cases h.symm.trans hwrite
    rw [heq, hreplace]

/-- **What a change is planned to be**: an answer at once, which is a refusal only if a key is known
under another address, or a write, which is not refused. -/
theorem plan_cases (r : Registry) (clock : Clock) (change : Change) :
    (∃ record, r.plan clock change = .answer (.added record)) ∨
    (∃ key existing, r.plan clock change = .answer (.refused (.conflict key existing))) ∨
    r.plan clock change = .answer (.removed none) ∨
    ∃ peers clock' a, r.plan clock change = .write peers clock' a ∧
      ∀ fault, a ≠ .refused fault := by
  cases change with
  | add key address =>
      cases hget : r.peers.get? key with
      | none =>
          refine Or.inr (Or.inr (Or.inr ⟨r.peers.insert key ⟨key, address, clock.read.1⟩,
            clock.read.2, .added ⟨key, address, clock.read.1⟩, by simp only [plan, hget], ?_⟩))
          exact fun _ heq => by cases heq
      | some existing =>
          by_cases haddress : existing.allowedAddress = address
          · exact Or.inl ⟨existing, by simp [plan, hget, haddress]⟩
          · exact Or.inr (Or.inl ⟨key, existing.allowedAddress, by simp [plan, hget, haddress]⟩)
  | remove key =>
      cases hget : r.peers.get? key with
      | none => exact Or.inr (Or.inr (Or.inl (by simp only [plan, hget])))
      | some record =>
          refine Or.inr (Or.inr (Or.inr ⟨r.peers.erase key, clock, .removed (some record),
            by simp only [plan, hget], ?_⟩))
          exact fun _ heq => by cases heq

/-- An answer at once does not speak of the file. -/
theorem answer_ne_io {r : Registry} {clock : Clock} {change : Change} {a : Answer}
    (h : r.plan clock change = .answer a) (path : Path) (error : OsError) :
    a ≠ .refused (.io path error) := by
  rintro rfl
  rcases plan_cases r clock change with ⟨_, hplan⟩ | ⟨_, _, hplan⟩ | hplan | ⟨_, _, _, hplan, -⟩ <;>
    cases h.symm.trans hplan

/-- What is written is not refused. -/
theorem write_ne_refused {r : Registry} {clock clock' : Clock} {change : Change}
    {peers : KeyMap RegisteredPeer} {a : Answer} (h : r.plan clock change = .write peers clock' a)
    (fault : Fault) : a ≠ .refused fault := by
  rcases plan_cases r clock change with
    ⟨_, hplan⟩ | ⟨_, _, hplan⟩ | hplan | ⟨_, _, _, hplan, hgranted⟩
  case inr.inr.inr =>
    cases h.symm.trans hplan
    exact hgranted fault
  all_goals cases h.symm.trans hplan

/-! ## Memory and file -/

/-- The file at the registry's path says what the registry holds, and the way to it is clear. -/
structure Kept (r : Registry) (disk : Disk) : Prop where
  clear : disk.Clear r.path
  load_eq : load disk r.path = .ok r

/-- Preparations are not noticed. -/
theorem Kept.prepares {r : Registry} {disk disk' : Disk} (h : Kept r disk)
    (hprepares : Disk.Prepares r.path disk disk') : Kept r disk' where
  clear := hprepares.clear h.clear
  load_eq := by rw [load_of_read_eq (hprepares.read_eq h.clear), h.load_eq]

/-- **A change keeps file and memory together**, be it that a step of its write fails. -/
theorem Kept.make {r : Registry} {host : Host} (h : Kept r host.disk) (change : Change) :
    Kept (r.make host change).2.1 (r.make host change).2.2.disk := by
  rcases make_cases r host change with ⟨a, -, heq⟩ |
    ⟨peers, clock, a, -, ⟨disk', hreplace, heq⟩ | ⟨error, disk', hreplace, heq⟩⟩
  · rw [heq]
    exact h
  · rw [heq]
    have hclear := h.clear.replace (contents peers)
    rw [hreplace] at hclear
    exact ⟨hclear, load_of_replace hreplace⟩
  · rw [heq]
    exact h.prepares (Disk.prepares_replace hreplace)

theorem path_make (r : Registry) (host : Host) (change : Change) :
    (r.make host change).2.1.path = r.path := by
  rcases make_cases r host change with ⟨a, -, heq⟩ |
    ⟨peers, clock, a, -, ⟨disk', -, heq⟩ | ⟨error, disk', -, heq⟩⟩ <;> rw [heq]

/-- **Changes keep file and memory together.** -/
theorem Kept.makeAll {r : Registry} {host : Host} (h : Kept r host.disk) (changes : List Change) :
    Kept (r.makeAll host changes).2.1 (r.makeAll host changes).2.2.disk ∧
      (r.makeAll host changes).2.1.path = r.path := by
  induction changes generalizing r host with
  | nil => exact ⟨h, rfl⟩
  | cons change changes ih =>
      obtain ⟨hkept, hpath⟩ := ih (h.make change)
      exact ⟨hkept, hpath.trans (path_make r host change)⟩

/-- A registry that is opened is kept in its file. -/
theorem kept_openAt {disk disk₀ : Disk} {path : Path} {r : Registry} (hrooted : disk.Rooted)
    (hgrounded : disk.Grounded path) (hopen : openAt disk path = (.ok r, disk₀)) :
    Kept r disk₀ ∧ r.path = path := by
  have hloses := Disk.onlyLoses_discardTemp disk path
  have hload : load (disk.discardTemp path).2 path = .ok r := congrArg Prod.fst hopen
  have hdisk : (disk.discardTemp path).2 = disk₀ := congrArg Prod.snd hopen
  rw [hdisk] at hload hloses
  obtain rfl := path_of_load hload
  refine ⟨⟨?_, hload⟩, rfl⟩
  cases hread : disk₀.read r.path with
  | ok bytes => exact Disk.clear_of_read hread
  | error e =>
      cases e with
      | noEntry =>
          exact Disk.clear_of_noEntry (hloses.rooted hrooted) (hloses.grounded hgrounded) hread
      | _ =>
          simp only [load, hread] at hload
          cases hload

/-- **A registry that is kept is opened again as it was**, be it that the clearing up before
fails. -/
theorem Kept.openAt_eq {r : Registry} {disk : Disk} (h : Kept r disk)
    (failures : List (Option DiskFailure)) :
    ∃ disk', openAt { disk with failures } r.path = (.ok r, disk') ∧
      Disk.Prepares r.path disk disk' := by
  have hspent := Disk.Prepares.failures r.path disk failures
  have hprepares := hspent.trans (Disk.prepares_discardTemp { disk with failures } r.path)
  exact ⟨_, Prod.ext (h.prepares hprepares).load_eq rfl, hprepares⟩

/-- Opening a registry leaves what is in its file's place, whatever that is. -/
theorem node?_openAt (disk : Disk) (path : Path) :
    (openAt disk path).2.node? (disk.placeOf path) = disk.node? (disk.placeOf path) := by
  have hne := Disk.placeOf_tempSibling_ne disk path
  show (disk.discardTemp path).2.node? _ = _
  rw [Disk.discardTemp_snd]
  rcases Disk.perform_cases disk (.remove path.tempSibling) with heq | happly | ⟨_, _, hpart, _⟩
  · rw [heq]
    rfl
  · obtain ⟨-, hdrop⟩ := Disk.removed_cases happly
    rw [hdrop]
    exact Disk.node?_drop_of_ne (Ne.symm hne) { disk with failures := disk.failures.tail }
  · cases hpart

/-! ## Opening again -/

/-- **A registry is found again as it is remembered.** After any changes, of whose writes any steps
may have failed, the file can be opened and holds what the registry holds. A change that fails of
the file leaves registry and file as they were; a conflict, an addition of what is known and a
removal of what is not do not touch the machine. Opening never changes what is at the path. -/
theorem reopens_as_remembered {disk disk₀ : Disk} {path : Path} {r₀ : Registry}
    (hrooted : disk.Rooted) (hgrounded : disk.Grounded path)
    (hopen : openAt disk path = (.ok r₀, disk₀)) (clock : Clock) (changes : List Change) :
    let run := r₀.makeAll { disk := disk₀, clock } changes
    let r := run.2.1
    let host := run.2.2
    (∀ failures, ∃ disk', openAt { host.disk with failures } path = (.ok r, disk')) ∧
      (∀ change, let after := r.make host change
        (∀ file error, after.1 = .refused (.io file error) →
          after.2.1 = r ∧ after.2.2.disk.read path = host.disk.read path ∧
            after.2.2.disk.node? (after.2.2.disk.placeOf path) =
              host.disk.node? (host.disk.placeOf path)) ∧
        (∀ key existing, after.1 = .refused (.conflict key existing) → after.2 = (r, host)) ∧
        (∀ key address record, change = .add key address → r.peers.get? key = some record →
          record.allowedAddress = address → after = (.added record, r, host)) ∧
        ∀ key, change = .remove key → r.peers.get? key = none →
          after = (.removed none, r, host)) ∧
      ∀ (other : Disk) (file : Path),
        (openAt other file).2.node? (other.placeOf file) = other.node? (other.placeOf file) := by
  intro run r host
  obtain ⟨hkept₀, hpath₀⟩ := kept_openAt hrooted hgrounded hopen
  obtain ⟨hkept, hpath⟩ : Kept r host.disk ∧ r.path = r₀.path := Kept.makeAll hkept₀ changes
  have hsame : r.path = path := hpath.trans hpath₀
  refine ⟨fun failures => ?_, fun change => ⟨?_, ?_, ?_, ?_⟩, node?_openAt⟩
  · obtain ⟨disk', hagain, -⟩ := hkept.openAt_eq failures
    exact ⟨disk', hsame ▸ hagain⟩
  · intro file error hio
    rcases make_cases r host change with ⟨a, hplan, heq⟩ |
      ⟨peers, clock', a, hplan, ⟨disk', hreplace, heq⟩ | ⟨error', disk', hreplace, heq⟩⟩
    · rw [heq] at hio
      exact absurd hio (answer_ne_io hplan file error)
    · rw [heq] at hio
      exact absurd hio (write_ne_refused hplan _)
    · rw [heq, ← hsame]
      have hprepares := Disk.prepares_replace hreplace
      refine ⟨rfl, hprepares.read_eq hkept.clear, ?_⟩
      rw [hprepares.placeOf_eq]
      exact hprepares.node?_eq hkept.clear
  · intro key existing hconflict
    rcases make_cases r host change with ⟨a, hplan, heq⟩ |
      ⟨peers, clock', a, hplan, ⟨disk', hreplace, heq⟩ | ⟨error', disk', hreplace, heq⟩⟩
    · rw [heq]
    · rw [heq] at hconflict
      exact absurd hconflict (write_ne_refused hplan _)
    · rw [heq] at hconflict
      cases hconflict
  · rintro key address record rfl hget haddress
    simp [make, add, hget, haddress]
  · rintro key rfl hget
    simp [make, remove, hget]

/-- A moment at which a clock may stand still. -/
def midsummer : Timestamp := ⟨⟨2024, 6, 21⟩, ⟨12, 30, 0, 0⟩, by decide, by decide⟩

/-- The first write runs out of space after three bytes; the peer is added anew, and another in its
stead. -/
theorem reopens_after_failed_write :
    let r₀ : Registry := { path := ⟨["state", "peers.json"]⟩ }
    let host : Host :=
      { disk := .oneDirectory [none, none, some ⟨.noSpace, 3⟩], clock := .still midsummer }
    let changes : List Change := [.add "a" "10.0.0.2/32", .add "a" "10.0.0.2/32",
      .add "b" "10.0.0.3/32", .add "a" "10.0.0.4/32", .remove "a"]
    let run := r₀.makeAll host changes
    openAt (.oneDirectory [none, none, none, some ⟨.noSpace, 3⟩]) r₀.path = (.ok r₀, host.disk) ∧
      run.1.map (fun a => a matches .refused _) = [true, false, false, true, false] ∧
      run.2.1.peers.keys = ["b"] ∧ ∃ disk', openAt run.2.2.disk r₀.path = (.ok run.2.1, disk') := by
  intro r₀ host changes run
  have hgrounded := Disk.grounded_of_descends (p := r₀.path) (by decide)
    (.oneDirectory [none, none, none, some ⟨.noSpace, 3⟩])
  obtain ⟨hopen, hrefused, hkeys⟩ :
      openAt (.oneDirectory [none, none, none, some ⟨.noSpace, 3⟩]) r₀.path =
          (.ok r₀, host.disk) ∧
        run.1.map (fun a => a matches .refused _) = [true, false, false, true, false] ∧
        run.2.1.peers.keys = ["b"] := by decide +kernel
  obtain ⟨hagain, -⟩ :=
    reopens_as_remembered (Disk.rooted_oneDirectory _) hgrounded hopen host.clock changes
  refine ⟨hopen, hrefused, hkeys, ?_⟩
  -- what was run is not computed again
  clear_value r₀ host changes
  exact hagain run.2.2.disk.failures

/-- A path that climbs out of a directory that is missing does not lead to the file that is there,
until a write has made the directory. -/
theorem reopening_finds_another_file :
    let path : Path := ⟨["x", "..", "peers.json"]⟩
    let disk : Disk :=
      { nodes := [(["peers.json"], .file [0x7b] 0o600), (["peers.json.tmp"], .directory 0o755)] }
    let after := Registry.make { path } { disk, clock := .still midsummer } (.add "a" "10.0.0.2/32")
    openAt disk path = (.ok { path }, disk) ∧ after.1 = .refused (.io path .isDirectory) ∧
      after.2.1.peers = ∅ ∧ (openAt after.2.2.disk path).1 = .error (.corrupt path .grammar) := by
  decide +kernel

end Registry

end OverlayVpn
