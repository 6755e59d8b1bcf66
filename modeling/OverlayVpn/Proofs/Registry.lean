import OverlayVpn.Proofs.Disk.Replace
import OverlayVpn.Proofs.Json.Reader
import OverlayVpn.Proofs.Json.Record
import OverlayVpn.Proofs.Store.KeyMap
import OverlayVpn.Proofs.Time.Rfc3339
import OverlayVpn.Registry

set_option autoImplicit false

/-! # What a registry's file says

The bytes that a registry writes are read back as the peers that it holds (`read_contents`).
Additions and removals write at most once, and memory follows only a write that succeeded
(`add_cases`, `remove_cases`). What the file says is therefore what memory holds (`Stored`), as long
as only the registry itself writes to it. -/

namespace OverlayVpn

open Json

/-! ## Records -/

/-- The fields of a record and the texts that it holds in them. -/
def RegisteredPeer.filled (r : RegisteredPeer) : List Filled :=
  fields.zip [r.publicKey, r.allowedAddress, r.registeredAt.text]

/-- A record is read back. -/
theorem RegisteredPeer.ofJson_toJson (r : RegisteredPeer) : ofJson r.toJson = .ok r := by
  have hmoment := Timestamp.read?_text r.registeredAt
  have htold : Told r.filled := by
    simp [Told, filled, fields, Filled.name]
  have hsound : ∀ q ∈ r.filled, q.sound = true := by
    simp [filled, fields, Filled.sound, Filled.name, hmoment]
  have hfields : r.filled.map (·.1) = fields := rfl
  have hwritten : ofMembers (r.filled.map fun q => (q.name, .string q.2)) = r.toJson := rfl
  have htexts := readRecord_ofMembers htold hsound
  rw [hfields, hwritten] at htexts
  simp only [ofJson, htexts, bind, Except.bind]
  simp [filled, fields, ofTexts, hmoment]

theorem RegisteredPeer.readable_toJson (r : RegisteredPeer) : readable r.toJson = true := rfl

/-! ## Files -/

theorem readable_ofMembers {members : List (String × Json)}
    (h : ∀ m ∈ members, readable m.2 = true) : readable (ofMembers members) = true := by
  show readableMembers (members.foldr (fun m rest => .cons (some m.1) m.2 rest) .nil) = true
  induction members with
  | nil => rfl
  | cons m members ih =>
      simp only [List.foldr_cons, readableMembers, Option.isSome_some, Bool.true_and,
        Bool.and_eq_true]
      exact ⟨h m List.mem_cons_self, ih fun n hn => h n (List.mem_cons_of_mem _ hn)⟩

/-- The members of an object are read one by one. -/
theorem readEntries_map {α : Type} {read : Json → Except Fault α} {write : α → Json}
    (h : ∀ a, read (write a) = .ok a) (entries : List (String × α)) :
    readEntries read ((entries.map fun e => (e.1, write e.2)).foldr
      (fun m rest => .cons (some m.1) m.2 rest) .nil) = .ok entries := by
  induction entries with
  | nil => rfl
  | cons e entries ih =>
      simp only [List.map_cons, List.foldr_cons, readEntries, h, ih]
      rfl

/-- A map is read back from the object of its entries. -/
theorem readMap_ofMembers {α : Type} {read : Json → Except Fault α} {write : α → Json}
    (h : ∀ a, read (write a) = .ok a) (m : KeyMap α) :
    readMap read (ofMembers (m.entries.map fun e => (e.1, write e.2))) = .ok m := by
  simp only [readMap, ofMembers, readEntries_map h]
  show Except.ok (KeyMap.ofList m.entries) = _
  rw [KeyMap.ofList_entries]

namespace Registry

/-- A file with an object in it is not blank. -/
theorem contents_not_blank (peers : KeyMap RegisteredPeer) :
    (contents peers).all isSpace = false := by
  have hopen : ∃ rest, chars 0 (document peers) = '\x7b' :: rest := by
    cases hentries : peers.entries with
    | nil => simp only [document, ofMembers, hentries, List.map_nil, List.foldr_nil, chars,
        List.cons.injEq, true_and, exists_eq']
    | cons e entries => simp only [document, ofMembers, hentries, List.map_cons, List.foldr_cons,
        chars, List.cons.injEq, true_and, exists_eq']
  obtain ⟨rest, hrest⟩ := hopen
  rw [contents, hrest]
  rfl

/-- **What a registry writes is read back.** -/
theorem read_contents (peers : KeyMap RegisteredPeer) : read (contents peers) = .ok peers := by
  have hreadable : readable (document peers) = true := by
    apply readable_ofMembers
    intro m hm
    obtain ⟨e, -, rfl⟩ := List.mem_map.mp hm
    exact RegisteredPeer.readable_toJson e.2
  rw [read, contents_not_blank]
  exact readDocument_encodeChars hreadable (readMap_ofMembers RegisteredPeer.ofJson_toJson peers)

/-! ## Changes -/

/-- A commit puts the peers into the file and then into memory, or leaves memory alone. -/
theorem commit_cases (r : Registry) (disk : Disk) (peers : KeyMap RegisteredPeer) :
    (∃ disk', disk.replace r.path (contents peers) = (.ok (), disk') ∧
      r.commit disk peers = (.ok { r with peers }, disk')) ∨
    ∃ error disk', disk.replace r.path (contents peers) = (.error error, disk') ∧
      r.commit disk peers = (.error (.io r.path error), disk') := by
  unfold commit
  cases hreplace : disk.replace r.path (contents peers) with
  | mk result disk' =>
      cases result with
      | ok u => exact Or.inl ⟨disk', rfl, rfl⟩
      | error error => exact Or.inr ⟨error, disk', rfl, rfl⟩

/-- **What an addition does.** A key that is registered is left alone; a new one is written with the
present moment. -/
theorem add_cases (r : Registry) (host : Host) (key address : String) :
    (∃ record, r.peers.get? key = some record ∧ record.allowedAddress = address ∧
      r.add host key address = (.ok record, r, host)) ∨
    (∃ record, r.peers.get? key = some record ∧ record.allowedAddress ≠ address ∧
      r.add host key address = (.error (.conflict key record.allowedAddress), r, host)) ∨
    (r.peers.get? key = none ∧ ∃ record : RegisteredPeer,
      record = ⟨key, address, host.clock.read.1⟩ ∧
      ((∃ disk', host.disk.replace r.path (contents (r.peers.insert key record)) = (.ok (), disk') ∧
          r.add host key address =
            (.ok record, { r with peers := r.peers.insert key record },
              { disk := disk', clock := host.clock.read.2 })) ∨
        ∃ error disk', host.disk.replace r.path (contents (r.peers.insert key record)) =
            (.error error, disk') ∧
          r.add host key address =
            (.error (.io r.path error), r, { disk := disk', clock := host.clock.read.2 }))) := by
  unfold add
  cases hget : r.peers.get? key with
  | some record =>
      by_cases haddress : record.allowedAddress = address
      · exact Or.inl ⟨record, rfl, haddress, by simp [haddress]⟩
      · exact Or.inr (Or.inl ⟨record, rfl, haddress, by simp [haddress]⟩)
  | none =>
      refine Or.inr (Or.inr ⟨rfl, _, rfl, ?_⟩)
      dsimp only
      rcases commit_cases r host.disk (r.peers.insert key ⟨key, address, host.clock.read.1⟩) with
        ⟨disk', hreplace, hcommit⟩ | ⟨error, disk', hreplace, hcommit⟩
      · exact Or.inl ⟨disk', hreplace, by rw [hcommit]⟩
      · exact Or.inr ⟨error, disk', hreplace, by rw [hcommit]⟩

/-- **What a removal does.** A key that is not registered is left alone. -/
theorem remove_cases (r : Registry) (host : Host) (key : String) :
    (r.peers.get? key = none ∧ r.remove host key = (.ok none, r, host)) ∨
    ∃ record, r.peers.get? key = some record ∧
      ((∃ disk', host.disk.replace r.path (contents (r.peers.erase key)) = (.ok (), disk') ∧
          r.remove host key =
            (.ok (some record), { r with peers := r.peers.erase key }, { host with disk := disk' })) ∨
        ∃ error disk', host.disk.replace r.path (contents (r.peers.erase key)) =
            (.error error, disk') ∧
          r.remove host key = (.error (.io r.path error), r, { host with disk := disk' })) := by
  unfold remove
  cases hget : r.peers.get? key with
  | none => exact Or.inl ⟨rfl, rfl⟩
  | some record =>
      refine Or.inr ⟨record, rfl, ?_⟩
      dsimp only
      rcases commit_cases r host.disk (r.peers.erase key) with
        ⟨disk', hreplace, hcommit⟩ | ⟨error, disk', hreplace, hcommit⟩
      · exact Or.inl ⟨disk', hreplace, by rw [hcommit]⟩
      · exact Or.inr ⟨error, disk', hreplace, by rw [hcommit]⟩

/-! ## Memory and file -/

/-- The file at a path says that the peers are registered: it holds them, or there is no file and
there are none. -/
def Stored (disk : Disk) (path : Path) (peers : KeyMap RegisteredPeer) : Prop :=
  (disk.contentsAt? (disk.placeOf path) = none ∧ peers = ∅) ∨
    ∃ bytes, disk.read path = .ok bytes ∧ read bytes = .ok peers

theorem Stored.spares {disk disk' : Disk} {path : Path} {peers : KeyMap RegisteredPeer}
    (h : Stored disk path peers) (hspares : Disk.Spares (disk.placeOf path) disk disk') :
    Stored disk' path peers := by
  rcases h with ⟨hnone, hempty⟩ | ⟨bytes, hread, hpeers⟩
  · refine Or.inl ⟨?_, hempty⟩
    rw [hspares.placeOf_eq, hspares.contentsAt?_eq, hnone]
  · exact Or.inr ⟨bytes, hspares.read hread, hpeers⟩

/-- What is written is stored; a write that fails leaves what was stored. -/
theorem stored_replace {disk disk' : Disk} {path : Path} {peers : KeyMap RegisteredPeer}
    (h : disk.replace path (contents peers) = (.ok (), disk')) : Stored disk' path peers :=
  Or.inr ⟨contents peers, Disk.read_replace h, read_contents peers⟩

/-- **A registry that can be opened holds what is stored.** -/
theorem load_of_stored {disk : Disk} {path : Path} {peers : KeyMap RegisteredPeer} {r : Registry}
    (h : Stored disk path peers) (hload : load disk path = .ok r) : r = ⟨path, peers⟩ := by
  unfold load at hload
  rcases h with ⟨hnone, rfl⟩ | ⟨bytes, hread, hpeers⟩
  · split at hload
    · exact (Except.ok.inj hload).symm
    · cases hload
    · next bytes hread =>
        obtain ⟨mode, hnode⟩ := Disk.node?_of_read hread
        rw [Disk.contentsAt?_eq_some_iff.mpr ⟨mode, hnode⟩] at hnone
        cases hnone
  · simp only [hread, hpeers] at hload
    exact (Except.ok.inj hload).symm

theorem stored_openAt {disk : Disk} {path : Path} {peers : KeyMap RegisteredPeer}
    (h : Stored disk path peers) : Stored (openAt disk path).2 path peers :=
  h.spares (Disk.spares_discardTemp disk path)

theorem openAt_of_stored {disk : Disk} {path : Path} {peers : KeyMap RegisteredPeer} {r : Registry}
    (h : Stored disk path peers) (hopen : (openAt disk path).1 = .ok r) : r = ⟨path, peers⟩ :=
  load_of_stored (stored_openAt h) hopen

/-! ## Opening again -/

theorem path_of_load {disk : Disk} {path : Path} {r : Registry} (h : load disk path = .ok r) :
    r.path = path := by
  unfold load at h
  split at h
  · rw [← Except.ok.inj h]
  · cases h
  · split at h
    · rw [← Except.ok.inj h]
    · cases h

theorem load_of_read_eq {disk disk' : Disk} {path : Path} (h : disk'.read path = disk.read path) :
    load disk' path = load disk path := by
  rw [load, load, h]

/-- What is written is what is loaded. -/
theorem load_of_replace {disk disk' : Disk} {path : Path} {peers : KeyMap RegisteredPeer}
    (h : disk.replace path (contents peers) = (.ok (), disk')) :
    load disk' path = .ok { path, peers } := by
  simp only [load, Disk.read_replace h, read_contents]

/-- **What could be loaded is loaded still**, when the file at the path was spared and others were
lost at most. -/
theorem load_of_loses {disk disk' : Disk} {path : Path} {r : Registry}
    (hspares : Disk.Spares (disk.placeOf path) disk disk') (hloses : Disk.OnlyLoses disk disk')
    (h : load disk path = .ok r) : load disk' path = .ok r := by
  have hread : disk'.read path = disk.read path := by
    cases hbefore : disk.read path with
    | ok bytes => exact hspares.read hbefore
    | error e =>
        -- of the errors only a missing file can be opened
        cases e with
        | noEntry => exact hloses.read_noEntry hbefore
        | _ =>
            simp only [load, hbefore] at h
            cases h
  rw [load_of_read_eq hread, h]

/-- **A registry that could be opened can be opened again**, and holds the same, as long as its file
stays as it is. -/
theorem openAt_of_load {disk : Disk} {path : Path} {r : Registry} (h : load disk path = .ok r) :
    ∃ disk', openAt disk path = (.ok r, disk') ∧ load disk' path = .ok r := by
  have hload : load (disk.discardTemp path).2 path = .ok r :=
    load_of_loses (Disk.spares_discardTemp disk path) (Disk.onlyLoses_discardTemp disk path) h
  exact ⟨(disk.discardTemp path).2, Prod.ext hload rfl, hload⟩

@[simp] theorem path_add (r : Registry) (host : Host) (key address : String) :
    (r.add host key address).2.1.path = r.path := by
  rcases add_cases r host key address with ⟨_, _, _, heq⟩ | ⟨_, _, _, heq⟩ |
    ⟨_, _, _, ⟨_, _, heq⟩ | ⟨_, _, _, heq⟩⟩ <;> rw [heq]

@[simp] theorem path_remove (r : Registry) (host : Host) (key : String) :
    (r.remove host key).2.1.path = r.path := by
  rcases remove_cases r host key with ⟨_, heq⟩ | ⟨_, _, ⟨_, _, heq⟩ | ⟨_, _, _, heq⟩⟩ <;> rw [heq]

/-- **An addition keeps memory and file together**, be it that the write fails. -/
theorem stored_add {r : Registry} {host : Host} (h : Stored host.disk r.path r.peers)
    (key address : String) :
    Stored (r.add host key address).2.2.disk r.path (r.add host key address).2.1.peers := by
  rcases add_cases r host key address with ⟨_, _, _, heq⟩ | ⟨_, _, _, heq⟩ |
    ⟨_, _, _, ⟨disk', hreplace, heq⟩ | ⟨error, disk', hreplace, heq⟩⟩
  · rw [heq]; exact h
  · rw [heq]; exact h
  · rw [heq]; exact stored_replace hreplace
  · rw [heq]; exact h.spares (Disk.spares_replace hreplace)

/-- **A removal keeps memory and file together**, be it that the write fails. -/
theorem stored_remove {r : Registry} {host : Host} (h : Stored host.disk r.path r.peers)
    (key : String) :
    Stored (r.remove host key).2.2.disk r.path (r.remove host key).2.1.peers := by
  rcases remove_cases r host key with ⟨_, heq⟩ |
    ⟨_, _, ⟨disk', hreplace, heq⟩ | ⟨error, disk', hreplace, heq⟩⟩
  · rw [heq]; exact h
  · rw [heq]; exact stored_replace hreplace
  · rw [heq]; exact h.spares (Disk.spares_replace hreplace)

end Registry

end OverlayVpn
