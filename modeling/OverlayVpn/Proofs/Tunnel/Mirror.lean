import OverlayVpn.Proofs.Key
import OverlayVpn.Proofs.Net.Socket
import OverlayVpn.Proofs.Tunnel.Bracketing

set_option autoImplicit false

/-! # The listed peers and the engine's table

The backend lists a peer as it was configured last, under its key as it was spelled; the engine
extends a peer, under the bytes of its key. The list mirrors the engine's table as long as no change
makes use of the difference (`Change.Faithful`), and no longer: `mirrors_iff_faithful`. -/

namespace OverlayVpn

open Engine

/-! ## What a request about a peer means -/

namespace Engine

/-- The body of a request that was accepted. -/
def Act.accepted? : Act → Option String
  | .set _ body true => some body
  | _ => none

/-- What a setting does to the selected peer. -/
def PeerEntry.update (entry : PeerEntry) : Setting → PeerEntry
  | .endpoint address => { entry with endpoint := some address.text }
  | .keepalive seconds => { entry with keepalive := some (Text.Decimal.render seconds.toNat) }
  | .allowedIp cidr => { entry with allowedIps := entry.allowedIps ++ [cidr] }
  | _ => entry

/-- A setting of the selected peer. -/
def Setting.OfPeer : Setting → Prop
  | .endpoint _ | .keepalive _ | .allowedIp _ => True
  | _ => False

/-- What the engine makes of a peer that is configured: it replaces the endpoint and the interval
if they are given, and adds the addresses. -/
def PeerEntry.extended (entry : PeerEntry) (peer : TunnelPeer) : PeerEntry where
  endpoint := (peer.endpoint.map Socket.text).or entry.endpoint
  keepalive := (peer.keepalive.map fun n => Text.Decimal.render n.toNat).or entry.keepalive
  allowedIps := entry.allowedIps ++ peer.allowedAddresses

theorem set_ofPeer {peers : KeyMap PeerEntry} {hex : String} {entry : PeerEntry}
    (hentry : peers.get? hex = some entry) {s : Setting} (hs : s.OfPeer) :
    PeerTable.set { peers, selected := some hex } s.name s.value =
      { peers := peers.insert hex (entry.update s), selected := some hex } := by
  cases s <;>
    first
    | exact hs.elim
    | simp only [Setting.name, Setting.value, PeerTable.set, PeerTable.adjust, hentry,
        Option.getD_some, PeerEntry.update]

/-- Settings of the selected peer change it alone. -/
theorem get?_foldl_ofPeer {settings : List Setting} (h : ∀ s ∈ settings, s.OfPeer)
    {peers : KeyMap PeerEntry} {hex : String} {entry : PeerEntry}
    (hentry : peers.get? hex = some entry) (other : String) :
    (settings.foldl (fun (t : PeerTable) s => t.set s.name s.value)
        { peers, selected := some hex }).peers.get? other =
      if other = hex then some (settings.foldl PeerEntry.update entry) else peers.get? other := by
  induction settings generalizing peers entry with
  | nil =>
      split
      · next heq => rw [heq]; exact hentry
      · rfl
  | cons s settings ih =>
      rw [List.foldl_cons, set_ofPeer hentry (h s List.mem_cons_self),
        ih (fun s' hs' => h s' (List.mem_cons_of_mem _ hs')) (KeyMap.get?_insert_self _ _ _)]
      split
      · rfl
      · next hne => rw [KeyMap.get?_insert, if_neg hne]

theorem foldl_update_allowed (entry : PeerEntry) (addresses : List String) :
    (addresses.map Setting.allowedIp).foldl PeerEntry.update entry =
      { entry with allowedIps := entry.allowedIps ++ addresses } := by
  induction addresses generalizing entry with
  | nil => simp
  | cons address addresses ih =>
      rw [List.map_cons, List.foldl_cons, ih]
      simp [PeerEntry.update]

end Engine

namespace EngineTunnel

variable {ω δ : Type}

/-- The settings of a peer after its key. -/
def peerLines (peer : TunnelPeer) : List Setting :=
  (peer.endpoint.map Setting.endpoint).toList ++ (peer.keepalive.map Setting.keepalive).toList ++
    peer.allowedAddresses.map .allowedIp

theorem peerSettings_eq (key : Key) (peer : TunnelPeer) :
    peerSettings key peer = .publicKey key :: peerLines peer := by
  simp [peerSettings, peerLines]

theorem mem_peerLines {peer : TunnelPeer} {s : Setting} (h : s ∈ peerLines peer) :
    (∃ address, s = .endpoint address) ∨ (∃ seconds, s = .keepalive seconds) ∨
      ∃ address ∈ peer.allowedAddresses, s = .allowedIp address := by
  simp only [peerLines, List.mem_append, Option.mem_toList, Option.map_eq_some_iff,
    List.mem_map] at h
  rcases h with (⟨address, -, rfl⟩ | ⟨seconds, -, rfl⟩) | ⟨address, haddress, rfl⟩
  · exact Or.inl ⟨address, rfl⟩
  · exact Or.inr (Or.inl ⟨seconds, rfl⟩)
  · exact Or.inr (Or.inr ⟨address, haddress, rfl⟩)

theorem foldl_update_peerLines (entry : PeerEntry) (peer : TunnelPeer) :
    (peerLines peer).foldl PeerEntry.update entry = entry.extended peer := by
  obtain ⟨publicKey, addresses, endpoint, keepalive⟩ := peer
  cases endpoint <;> cases keepalive <;>
    simp [peerLines, PeerEntry.extended, foldl_update_allowed, PeerEntry.update]

/-- The addresses that a peer is allowed have no line breaks. -/
def FitsLines (peer : TunnelPeer) : Prop :=
  ∀ address ∈ peer.allowedAddresses, (Setting.allowedIp address).OnLine

theorem newline_not_mem_of_solid {s : String} (h : Text.Solid s) : '\n' ∉ s.toList := by
  intro hmem
  have hblank := h _ hmem
  cases hblank

theorem onLine_peerSettings (key : Key) {peer : TunnelPeer} (h : FitsLines peer) :
    ∀ s ∈ peerSettings key peer, s.OnLine := by
  intro s hs
  rw [peerSettings_eq, List.mem_cons] at hs
  rcases hs with rfl | hs
  · exact onLine_publicKey key
  · rcases mem_peerLines hs with ⟨address, rfl⟩ | ⟨seconds, rfl⟩ | ⟨address, haddress, rfl⟩
    · exact newline_not_mem_of_solid address.solid_text
    · exact newline_not_mem_of_solid (Text.solid_render _)
    · exact h address haddress

/-- **What the engine makes of a request about a peer**: it extends the peer of the key, a new one
if need be, and leaves the others alone. -/
theorem get?_apply_peerSettings (peers : KeyMap PeerEntry) (key : Key) {peer : TunnelPeer}
    (h : FitsLines peer) (hex : String) :
    (PeerTable.apply peers (body (peerSettings key peer))).get? hex =
      if hex = key.hex then some (((peers.get? key.hex).getD {}).extended peer)
      else peers.get? hex := by
  have hpeer : ∀ s ∈ peerLines peer, s.OfPeer := by
    intro s hs
    rcases mem_peerLines hs with ⟨address, rfl⟩ | ⟨seconds, rfl⟩ | ⟨address, -, rfl⟩ <;> trivial
  have hselected : PeerTable.set { peers } (Setting.publicKey key).name (Setting.publicKey key).value =
      { peers := peers.insert key.hex ((peers.get? key.hex).getD {}), selected := some key.hex } :=
    rfl
  rw [PeerTable.apply_body peers (onLine_peerSettings key h), peerSettings_eq, List.foldl_cons,
    hselected, get?_foldl_ofPeer hpeer (KeyMap.get?_insert_self _ _ _), foldl_update_peerLines]
  split
  · rfl
  · next hne => rw [KeyMap.get?_insert, if_neg hne]

/-! ## The list and the table -/

/-- A listed peer is as the engine has it. -/
def Same (peer : TunnelPeer) (entry : PeerEntry) : Prop :=
  entry.endpoint = peer.endpoint.map Socket.text ∧
    entry.keepalive = (peer.keepalive.map fun n => Text.Decimal.render n.toNat) ∧
    ∀ address, address ∈ entry.allowedIps ↔ address ∈ peer.allowedAddresses

/-- A list of peers mirrors the table of an engine: it has one entry for each of the engine's peers,
under the key that its text stands for, and the entry is as the engine has the peer. -/
structure Mirrors (listed : List TunnelPeer) (table : KeyMap PeerEntry) : Prop where
  nodup : listed.Nodup
  once : ∀ p ∈ listed, ∀ q ∈ listed, Key.read p.publicKey = Key.read q.publicKey → p = q
  known : ∀ p ∈ listed, ∃ key entry, Key.read p.publicKey = .ok key ∧
    table.get? key.hex = some entry ∧ Same p entry
  all : ∀ hex entry, table.get? hex = some entry →
    ∃ p ∈ listed, ∃ key, Key.read p.publicKey = .ok key ∧ key.hex = hex

/-- A change of the peers. -/
inductive Change where
  | insert (peer : TunnelPeer)
  | erase (publicKey : String)

namespace Change

def call : Change → Call
  | .insert peer => .insertPeer peer
  | .erase publicKey => .erasePeer publicKey

/-- The text of the key that is meant. -/
def publicKey : Change → String
  | .insert peer => peer.publicKey
  | .erase publicKey => publicKey

/-- The request for the change. -/
def request (key : Key) : Change → String
  | .insert peer => body (peerSettings key peer)
  | .erase _ => dropBody key

/-- What the backend remembers after the change. -/
def remembered (peers : KeyMap TunnelPeer) : Change → KeyMap TunnelPeer
  | .insert peer => peers.insert peer.publicKey peer
  | .erase publicKey => peers.erase publicKey

/-- Allowed addresses have no line breaks. -/
def FitsLines : Change → Prop
  | .insert peer => EngineTunnel.FitsLines peer
  | .erase _ => True

/-- A change after which the list still mirrors the engine: it spells a key that is listed as it is
listed, and a peer that is configured again keeps its addresses, and its endpoint and its interval
where it had them. -/
def Faithful (listed : List TunnelPeer) : Change → Prop
  | .insert peer => ∀ old ∈ listed, Key.read old.publicKey = Key.read peer.publicKey →
    old.publicKey = peer.publicKey ∧ old.allowedAddresses ⊆ peer.allowedAddresses ∧
      (old.endpoint.isSome = true → peer.endpoint.isSome = true) ∧
      (old.keepalive.isSome = true → peer.keepalive.isSome = true)
  | .erase publicKey => ∀ old ∈ listed, Key.read old.publicKey = Key.read publicKey →
    old.publicKey = publicKey

instance (listed : List TunnelPeer) (change : Change) : Decidable (change.Faithful listed) :=
  match change with
  | .insert _ => inferInstanceAs (Decidable (∀ old ∈ listed, _ → _))
  | .erase _ => inferInstanceAs (Decidable (∀ old ∈ listed, _ → _))

end Change

/-- Every peer is remembered under the text of its key. -/
def Spelled (peers : KeyMap TunnelPeer) : Prop :=
  ∀ text peer, peers.get? text = some peer → peer.publicKey = text

theorem spelled_empty : Spelled ∅ := by
  intro text peer h
  cases h

theorem Spelled.remembered {peers : KeyMap TunnelPeer} (h : Spelled peers) (change : Change) :
    Spelled (change.remembered peers) := by
  intro text p hp
  cases change with
  | insert peer =>
      simp only [Change.remembered, KeyMap.get?_insert] at hp
      split at hp
      · next heq => rw [← Option.some.inj hp, heq]
      · exact h text p hp
  | erase key =>
      simp only [Change.remembered, KeyMap.get?_erase] at hp
      split at hp
      · cases hp
      · exact h text p hp

theorem Spelled.mem_iff {peers : KeyMap TunnelPeer} (h : Spelled peers) {p : TunnelPeer} :
    p ∈ peers.values ↔ peers.get? p.publicKey = some p := by
  rw [KeyMap.mem_values_iff]
  constructor
  · rintro ⟨text, hp⟩
    rw [h text p hp]
    exact hp
  · exact fun hp => ⟨_, hp⟩

theorem Spelled.nodup {peers : KeyMap TunnelPeer} (h : Spelled peers) : peers.values.Nodup := by
  refine List.pairwise_map.mpr (peers.sorted.imp_of_mem ?_)
  rintro ⟨k, p⟩ ⟨l, q⟩ hp hq hlt (rfl : p = q)
  have hk := h k p (KeyMap.mem_entries_iff.mp hp)
  have hl := h l p (KeyMap.mem_entries_iff.mp hq)
  have hbefore : k < l := hlt
  rw [← hk, ← hl] at hbefore
  exact String.lt_irrefl _ hbefore

theorem Spelled.mem_insert_iff {peers : KeyMap TunnelPeer} (h : Spelled peers)
    {peer p : TunnelPeer} :
    p ∈ (peers.insert peer.publicKey peer).values ↔
      p = peer ∨ (p.publicKey ≠ peer.publicKey ∧ p ∈ peers.values) := by
  have hafter : Spelled (peers.insert peer.publicKey peer) := h.remembered (.insert peer)
  rw [hafter.mem_iff, h.mem_iff, KeyMap.get?_insert]
  split
  · next heq =>
      simp only [Option.some.injEq, heq, ne_eq, not_true_eq_false, false_and, or_false]
      exact eq_comm
  · next hne =>
      simp only [ne_eq, hne, not_false_eq_true, true_and, iff_or_self]
      rintro rfl
      exact absurd rfl hne

theorem Spelled.mem_erase_iff {peers : KeyMap TunnelPeer} (h : Spelled peers) {text : String}
    {p : TunnelPeer} :
    p ∈ (peers.erase text).values ↔ p.publicKey ≠ text ∧ p ∈ peers.values := by
  have hafter : Spelled (peers.erase text) := h.remembered (.erase text)
  rw [hafter.mem_iff, h.mem_iff, KeyMap.get?_erase]
  split
  · next heq => simp [heq]
  · next hne => simp [hne]

/-! ## One change -/

section

variable {peers : KeyMap TunnelPeer} {table : KeyMap PeerEntry} {key : Key}

/-- A peer that the engine has already is listed, and is as listed. -/
theorem Mirrors.exists_of_get? {listed : List TunnelPeer} (h : Mirrors listed table)
    {entry : PeerEntry} (hentry : table.get? key.hex = some entry) :
    ∃ old ∈ listed, Key.read old.publicKey = .ok key ∧ Same old entry := by
  obtain ⟨old, hold, oldKey, hread, hhex⟩ := h.all _ _ hentry
  obtain rfl := Key.hex_inj hhex
  obtain ⟨key, oldEntry, hread', hfound, hsame⟩ := h.known old hold
  obtain rfl := Except.ok.inj (hread.symm.trans hread')
  obtain rfl := Option.some.inj (hentry.symm.trans hfound)
  exact ⟨old, hold, hread, hsame⟩

/-- Extending a peer gives what is listed next exactly when it was listed with no more. -/
theorem same_extended_iff {old peer : TunnelPeer} {entry : PeerEntry} (h : Same old entry) :
    Same peer (entry.extended peer) ↔
      old.allowedAddresses ⊆ peer.allowedAddresses ∧
        (old.endpoint.isSome = true → peer.endpoint.isSome = true) ∧
        (old.keepalive.isSome = true → peer.keepalive.isSome = true) := by
  obtain ⟨hendpoint, hkeepalive, hallowed⟩ := h
  have haddresses : (∀ address, address ∈ entry.allowedIps ++ peer.allowedAddresses ↔
      address ∈ peer.allowedAddresses) ↔ old.allowedAddresses ⊆ peer.allowedAddresses := by
    simp only [List.mem_append, or_iff_right_iff_imp, hallowed]
    rfl
  simp only [Same, PeerEntry.extended, hendpoint, hkeepalive, haddresses]
  cases peer.endpoint <;> cases old.endpoint <;> cases peer.keepalive <;>
    cases old.keepalive <;> simp

theorem same_extended_empty (peer : TunnelPeer) : Same peer (PeerEntry.extended {} peer) := by
  simp [Same, PeerEntry.extended]

/-- Texts that are read as different keys are different. -/
theorem ne_of_hex_ne {text other : String} {key otherKey : Key} (hkey : Key.read text = .ok key)
    (hother : Key.read other = .ok otherKey) (hne : otherKey.hex ≠ key.hex) : other ≠ text := by
  rintro rfl
  obtain rfl := Except.ok.inj (hother.symm.trans hkey)
  exact hne rfl

/-- Texts that are not read as one key are read as keys that the engine tells apart. -/
theorem hex_ne_of_read_ne {text other : String} {key otherKey : Key}
    (hkey : Key.read text = .ok key) (hother : Key.read other = .ok otherKey)
    (hne : Key.read other ≠ Key.read text) : otherKey.hex ≠ key.hex := by
  intro hhex
  rw [hother, hkey, Key.hex_inj hhex] at hne
  exact hne rfl

theorem faithful_of_mirrors_insert (hspelled : Spelled peers) (h : Mirrors peers.values table)
    {peer : TunnelPeer} (hkey : Key.read peer.publicKey = .ok key) (hline : FitsLines peer)
    (h' : Mirrors (peers.insert peer.publicKey peer).values
      (PeerTable.apply table (body (peerSettings key peer)))) :
    Change.Faithful peers.values (.insert peer) := by
  intro old hold hsame
  have hpeer : peer ∈ (peers.insert peer.publicKey peer).values :=
    hspelled.mem_insert_iff.mpr (Or.inl rfl)
  have hspelling : old.publicKey = peer.publicKey := by
    by_contra hne
    have hmem := hspelled.mem_insert_iff.mpr (Or.inr ⟨hne, hold⟩)
    exact hne (congrArg TunnelPeer.publicKey (h'.once old hmem peer hpeer hsame))
  -- the engine has both what was listed and what is listed next
  obtain ⟨oldKey, oldEntry, hold', hfound, holdSame⟩ := h.known old hold
  obtain rfl := Except.ok.inj (hold'.symm.trans (hsame.trans hkey))
  obtain ⟨peerKey, entry, hpeer', hentry, hpeerSame⟩ := h'.known peer hpeer
  obtain rfl := Except.ok.inj (hpeer'.symm.trans hkey)
  rw [get?_apply_peerSettings table _ hline, if_pos rfl, hfound] at hentry
  obtain rfl := Option.some.inj hentry
  exact ⟨hspelling, (same_extended_iff holdSame).mp hpeerSame⟩

theorem Mirrors.insert (hspelled : Spelled peers) (h : Mirrors peers.values table)
    {peer : TunnelPeer} (hkey : Key.read peer.publicKey = .ok key) (hline : FitsLines peer)
    (hfaithful : Change.Faithful peers.values (.insert peer)) :
    Mirrors (peers.insert peer.publicKey peer).values
      (PeerTable.apply table (body (peerSettings key peer))) where
  nodup := (hspelled.remembered (.insert peer)).nodup
  once := by
    intro p hp q hq hsame
    rcases hspelled.mem_insert_iff.mp hp with rfl | ⟨hpne, hpold⟩ <;>
      rcases hspelled.mem_insert_iff.mp hq with rfl | ⟨hqne, hqold⟩
    · rfl
    · exact absurd (hfaithful q hqold hsame.symm).1 hqne
    · exact absurd (hfaithful p hpold hsame).1 hpne
    · exact h.once p hpold q hqold hsame
  known := by
    intro p hp
    rcases hspelled.mem_insert_iff.mp hp with rfl | ⟨hne, hp⟩
    · refine ⟨key, _, hkey, by rw [get?_apply_peerSettings table key hline, if_pos rfl], ?_⟩
      cases hfound : table.get? key.hex with
      | none => exact same_extended_empty p
      | some entry =>
          obtain ⟨old, hold, hread, holdSame⟩ := h.exists_of_get? hfound
          exact (same_extended_iff holdSame).mpr (hfaithful old hold (hread.trans hkey.symm)).2
    · obtain ⟨otherKey, entry, hread, hentry, hsame⟩ := h.known p hp
      have hother := hex_ne_of_read_ne hkey hread fun heq => hne (hfaithful p hp heq).1
      refine ⟨otherKey, entry, hread, ?_, hsame⟩
      rw [get?_apply_peerSettings table key hline, if_neg hother, hentry]
  all := by
    intro hex entry hentry
    rw [get?_apply_peerSettings table key hline] at hentry
    split at hentry
    · next heq => exact ⟨peer, hspelled.mem_insert_iff.mpr (Or.inl rfl), key, hkey, heq.symm⟩
    · next hne =>
        obtain ⟨old, hold, oldKey, hread, rfl⟩ := h.all hex entry hentry
        have hother := ne_of_hex_ne hkey hread hne
        exact ⟨old, hspelled.mem_insert_iff.mpr (Or.inr ⟨hother, hold⟩), oldKey, hread, rfl⟩

theorem faithful_of_mirrors_erase (hspelled : Spelled peers) {publicKey : String}
    (hkey : Key.read publicKey = .ok key)
    (h' : Mirrors (peers.erase publicKey).values (PeerTable.apply table (dropBody key))) :
    Change.Faithful peers.values (.erase publicKey) := by
  intro old hold hsame
  by_contra hne
  obtain ⟨oldKey, entry, hread, hentry, -⟩ :=
    h'.known old (hspelled.mem_erase_iff.mpr ⟨hne, hold⟩)
  obtain rfl := Except.ok.inj (hread.symm.trans (hsame.trans hkey))
  rw [get?_dropBody, if_pos rfl] at hentry
  cases hentry

theorem Mirrors.erase (hspelled : Spelled peers) (h : Mirrors peers.values table)
    {publicKey : String} (hkey : Key.read publicKey = .ok key)
    (hfaithful : Change.Faithful peers.values (.erase publicKey)) :
    Mirrors (peers.erase publicKey).values (PeerTable.apply table (dropBody key)) where
  nodup := (hspelled.remembered (.erase publicKey)).nodup
  once p hp q hq :=
    h.once p (hspelled.mem_erase_iff.mp hp).2 q (hspelled.mem_erase_iff.mp hq).2
  known := by
    intro p hp
    obtain ⟨hne, hp⟩ := hspelled.mem_erase_iff.mp hp
    obtain ⟨otherKey, entry, hread, hentry, hsame⟩ := h.known p hp
    have hother := hex_ne_of_read_ne hkey hread fun heq => hne (hfaithful p hp heq)
    refine ⟨otherKey, entry, hread, ?_, hsame⟩
    rw [get?_dropBody, if_neg hother, hentry]
  all := by
    intro hex entry hentry
    rw [get?_dropBody] at hentry
    split at hentry
    · cases hentry
    · next hne =>
        obtain ⟨old, hold, oldKey, hread, rfl⟩ := h.all hex entry hentry
        have hother := ne_of_hex_ne hkey hread hne
        exact ⟨old, hspelled.mem_erase_iff.mpr ⟨hother, hold⟩, oldKey, hread, rfl⟩

/-- **An accepted change leaves the list a mirror exactly when it is faithful**: a peer that is
configured must make no use of the difference, and one that is removed be spelled as it is listed. -/
theorem mirrors_change_iff (hspelled : Spelled peers) (h : Mirrors peers.values table)
    {change : Change} (hkey : Key.read change.publicKey = .ok key) (hline : change.FitsLines) :
    Mirrors (change.remembered peers).values (PeerTable.apply table (change.request key)) ↔
      change.Faithful peers.values := by
  cases change with
  | insert peer =>
      exact ⟨faithful_of_mirrors_insert hspelled h hkey hline, h.insert hspelled hkey hline⟩
  | erase publicKey => exact ⟨faithful_of_mirrors_erase hspelled hkey, h.erase hspelled hkey⟩

end

/-! ## All changes -/

/-- The bodies of the requests that the engine accepted. -/
def accepted (entries : List Entry) : List String := (journal entries).filterMap Act.accepted?

theorem accepted_concat (entries : List Entry) (entry : Entry) :
    accepted (entries ++ [entry]) = accepted entries ++ accepted [entry] := by
  simp [accepted, journal]

/-- A request is accepted or fails. -/
theorem send_journaled (e : Engine ω δ) (body : String) (b : EngineTunnel (Nat × δ)) (x : Diary ω) :
    (∃ w n, send e.journaled body (b, x) = (.ok (), b, ⟨w, x.made, x.acts ++ [.set n body true]⟩)) ∨
      ∃ fault w acts, send e.journaled body (b, x) = (.error fault, b, ⟨w, x.made, x.acts ++ acts⟩) ∧
        acts.filterMap Act.accepted? = [] := by
  unfold send
  dsimp only
  split
  · split
    · exact Or.inr ⟨.deviceMissing, x.world, [], by simp, rfl⟩
    · next numbered _ =>
        cases hset : e.set numbered.2 body x.world with
        | mk result w =>
            simp only [journaled, noting, hset]
            cases result with
            | ok done => exact Or.inl ⟨w, numbered.1, rfl⟩
            | error fault => exact Or.inr ⟨_, w, [.set numbered.1 body false], rfl, rfl⟩
  · exact Or.inr ⟨.notRunning, x.world, [], by simp, rfl⟩

/-- A change is one request; what the backend remembers changes once it is accepted. -/
theorem perform_change (e : Engine ω δ) (s : EngineTunnel δ × ω) (change : Change) :
    perform e s change.call =
      match Key.read change.publicKey with
      | .error fault => (.done (.error (.invalidKey .peerPublicKey fault)), s)
      | .ok key =>
        match send e (change.request key) s with
        | (.ok (), b, w) => (.done (.ok ()), { b with peers := change.remembered b.peers }, w)
        | (.error fault, s) => (.done (.error fault), s) := by
  cases change with
  | insert peer =>
      simp only [Change.call, perform, insertPeer, Change.publicKey]
      cases Key.read peer.publicKey with
      | error fault => rfl
      | ok key =>
          simp only [Change.request]
          rcases send e (body (peerSettings key peer)) s with ⟨fault | done, b, w⟩ <;> rfl
  | erase publicKey =>
      simp only [Change.call, perform, erasePeer, Change.publicKey]
      cases Key.read publicKey with
      | error fault => rfl
      | ok key =>
          simp only [Change.request, dropBody]
          rcases send e (body [.publicKey key, .remove]) s with ⟨fault | done, b, w⟩ <;> rfl

/-- **A change is made when its request is accepted**, and otherwise nothing is. -/
theorem note_change (e : Engine ω δ) (t : EngineTunnel (Nat × δ) × Diary ω) (change : Change) :
    (∃ key, Key.read change.publicKey = .ok key ∧ (note e t change.call).1.reply = .done (.ok ()) ∧
        accepted [(note e t change.call).1] = [change.request key] ∧
        (note e t change.call).2.1.peers = change.remembered t.1.peers) ∨
      ∃ fault, (note e t change.call).1.reply = .done (.error fault) ∧
        accepted [(note e t change.call).1] = [] ∧
        (note e t change.call).2.1.peers = t.1.peers := by
  obtain ⟨b, x⟩ := t
  cases hkey : Key.read change.publicKey with
  | error fault =>
      have hnote : note e (b, x) change.call =
          (⟨change.call, .done (.error (.invalidKey .peerPublicKey fault)), []⟩, b,
            { x with acts := [] }) := by
        simp only [note, perform_change, hkey]
      rw [hnote]
      exact Or.inr ⟨_, rfl, rfl, rfl⟩
  | ok key =>
      rcases send_journaled e (change.request key) b { x with acts := [] } with
        ⟨w, n, hsend⟩ | ⟨fault, w, acts, hsend, hnone⟩
      · have hnote : note e (b, x) change.call =
            (⟨change.call, .done (.ok ()), [.set n (change.request key) true]⟩,
              { b with peers := change.remembered b.peers },
              ⟨w, x.made, [.set n (change.request key) true]⟩) := by
          simp only [note, perform_change, hkey, hsend, List.nil_append]
        rw [hnote]
        exact Or.inl ⟨key, rfl, rfl, rfl, rfl⟩
      · have hnote : note e (b, x) change.call =
            (⟨change.call, .done (.error fault), acts⟩, b, ⟨w, x.made, acts⟩) := by
          simp only [note, perform_change, hkey, hsend, List.nil_append]
        rw [hnote]
        refine Or.inr ⟨fault, rfl, ?_, rfl⟩
        simpa [accepted, journal] using hnone

/-- A backend that has just been started. -/
def upWith (device : δ) (config : TunnelSettings) : EngineTunnel δ :=
  { device := some device, config := some config, running := true }

/-- A backend that has just been started, with changes made one after another. -/
def changed (e : Engine ω δ) (device : δ) (config : TunnelSettings) (w : ω) (changes : List Change) :
    EngineTunnel δ × ω :=
  (serve e (upWith device config, w) (changes.map Change.call)).2

/-- The same with a page of a journal for each change; the device has the number 0. -/
def changedPages (e : Engine ω δ) (device : δ) (config : TunnelSettings) (w : ω)
    (changes : List Change) : List Entry × EngineTunnel (Nat × δ) × Diary ω :=
  record e (upWith (0, device) config, { world := w, made := 1 }) (changes.map Change.call)

/-- The engine's table after the requests that it accepted. -/
def changedTable (e : Engine ω δ) (device : δ) (config : TunnelSettings) (w : ω)
    (changes : List Change) : KeyMap PeerEntry :=
  (accepted (changedPages e device config w changes).1).foldl PeerTable.apply ∅

section

variable (e : Engine ω δ) (device : δ) (config : TunnelSettings) (w : ω)

theorem changed_unnoticed (changes : List Change) :
    (changedPages e device config w changes).1.map (·.reply) =
        (serve e (upWith device config, w) (changes.map Change.call)).1 ∧
      Unnoticed (changedPages e device config w changes).2 (changed e device config w changes) :=
  (record_unnoticed e (changes.map Change.call)
    (t := (upWith (0, device) config, { world := w, made := 1 })) (s := (upWith device config, w))
    ⟨.some rfl, rfl, rfl, rfl, rfl⟩).2

/-- One change more: it is answered as it is noted, and adds one page. -/
theorem changed_concat (changes : List Change) (change : Change) :
    (∃ key, Key.read change.publicKey = .ok key ∧
        (perform e (changed e device config w changes) change.call).1 = .done (.ok ()) ∧
        changedTable e device config w (changes ++ [change]) =
          PeerTable.apply (changedTable e device config w changes) (change.request key) ∧
        (changed e device config w (changes ++ [change])).1.peers =
          change.remembered (changed e device config w changes).1.peers) ∨
      ∃ fault, (perform e (changed e device config w changes) change.call).1 =
          .done (.error fault) ∧
        changedTable e device config w (changes ++ [change]) =
          changedTable e device config w changes ∧
        (changed e device config w (changes ++ [change])).1.peers =
          (changed e device config w changes).1.peers := by
  have hunnoticed := (changed_unnoticed e device config w changes).2
  have hafter := (changed_unnoticed e device config w (changes ++ [change])).2
  have hpages : changedPages e device config w (changes ++ [change]) =
      ((changedPages e device config w changes).1 ++
          [(note e (changedPages e device config w changes).2 change.call).1],
        (note e (changedPages e device config w changes).2 change.call).2) := by
    simp only [changedPages, List.map_append, List.map_cons, List.map_nil, record_concat]
  have hreply : (note e (changedPages e device config w changes).2 change.call).1.reply =
      (perform e (changed e device config w changes) change.call).1 :=
    (perform_alike (alike_journaled e) (hunnoticed.withWorld
      (w := { (changedPages e device config w changes).2.2 with acts := [] })
      hunnoticed.world) change.call).1
  have hpeers := hafter.peers
  simp only [changedTable]
  rw [hpages] at hpeers ⊢
  rw [← hpeers, ← hunnoticed.peers, ← hreply, accepted_concat, List.foldl_append]
  rcases note_change e (changedPages e device config w changes).2 change with
    ⟨key, hkey, hok, haccepted, hremembered⟩ | ⟨fault, herror, hnone, hsame⟩
  · rw [haccepted]
    exact Or.inl ⟨key, hkey, hok, rfl, hremembered⟩
  · rw [hnone]
    exact Or.inr ⟨fault, herror, rfl, hsame⟩

theorem spelled_changed (changes : List Change) :
    Spelled (changed e device config w changes).1.peers := by
  induction changes using List.reverseRecOn with
  | nil => exact spelled_empty
  | append_singleton changes change ih =>
      rcases changed_concat e device config w changes change with
        ⟨key, -, -, -, hremembered⟩ | ⟨fault, -, -, hsame⟩
      · rw [hremembered]
        exact ih.remembered change
      · rw [hsame]
        exact ih

/-- After one change more the list mirrors the engine exactly when the change was faithful, or
failed. -/
theorem mirrors_concat_iff {changes : List Change} {change : Change} (hline : change.FitsLines)
    (h : Mirrors (changed e device config w changes).1.peers.values
      (changedTable e device config w changes)) :
    Mirrors (changed e device config w (changes ++ [change])).1.peers.values
        (changedTable e device config w (changes ++ [change])) ↔
      ((perform e (changed e device config w changes) change.call).1 = .done (.ok ()) →
        change.Faithful (changed e device config w changes).1.peers.values) := by
  rcases changed_concat e device config w changes change with
    ⟨key, hkey, hok, htable, hremembered⟩ | ⟨fault, herror, htable, hsame⟩
  · rw [htable, hremembered, hok,
      mirrors_change_iff (spelled_changed e device config w changes) h hkey hline]
    simp
  · rw [htable, hsame, herror]
    simp [h]

theorem mirrors_nil : Mirrors (changed e device config w []).1.peers.values
    (changedTable e device config w []) where
  nodup := List.nodup_nil
  once p hp := absurd hp List.not_mem_nil
  known p hp := absurd hp List.not_mem_nil
  all hex entry h := by cases h

/-- **The list mirrors the engine as long as every change is faithful, and no longer.** A backend
that has just been started makes changes of its peers, each of which the engine accepts or refuses.
The peers that it lists are after each change those that the accepted requests mean, one entry for
each peer of the engine and each with the same endpoint, interval and addresses, exactly when no
accepted change spells a key otherwise than it is listed, or configures a listed peer with less than
it had. -/
theorem mirrors_iff_faithful (changes : List Change)
    (hline : ∀ change ∈ changes, change.FitsLines) :
    (changedPages e device config w changes).1.map (·.reply) =
        (serve e (upWith device config, w) (changes.map Change.call)).1 ∧
      ((∀ earlier, earlier <+: changes →
          Mirrors ((backend e).knownPeers (changed e device config w earlier))
            (changedTable e device config w earlier)) ↔
        ∀ before change after, changes = before ++ change :: after →
          (perform e (changed e device config w before) change.call).1 = .done (.ok ()) →
          change.Faithful ((backend e).knownPeers (changed e device config w before))) := by
  refine ⟨(changed_unnoticed e device config w changes).1, ?_⟩
  simp only [backend]
  induction changes using List.reverseRecOn with
  | nil =>
      refine ⟨fun _ before change after heq => by simp at heq, fun _ earlier hearlier => ?_⟩
      obtain rfl := List.prefix_nil.mp hearlier
      exact mirrors_nil e device config w
  | append_singleton changes change ih =>
      have ih := ih fun c hc => hline c (List.mem_append_left _ hc)
      have hstep := @mirrors_concat_iff _ _ e device config w changes change
        (hline change (by simp))
      constructor
      · intro hmirrors before c after heq
        have hbefore := fun earlier (h : earlier <+: changes) =>
          hmirrors earlier (h.trans (List.prefix_append _ _))
        -- the change is the last one, or one of those before
        rcases List.eq_nil_or_concat after with rfl | ⟨after, last, rfl⟩
        · obtain ⟨rfl, hlast⟩ := List.append_inj' heq rfl
          obtain rfl := List.singleton_inj.mp hlast
          exact (hstep (hbefore changes List.prefix_rfl)).mp (hmirrors _ List.prefix_rfl)
        · rw [List.concat_eq_append, ← List.cons_append, ← List.append_assoc] at heq
          exact ih.mp hbefore before c after (List.append_inj' heq rfl).1
      · intro hfaithful earlier hearlier
        have hbefore := ih.mpr fun before c after heq =>
          hfaithful before c (after ++ [change]) (by rw [heq]; simp)
        rcases List.prefix_concat_iff.mp hearlier with rfl | hshorter
        · exact (hstep (hbefore changes List.prefix_rfl)).mpr (hfaithful changes change [] rfl)
        · exact hbefore earlier hshorter

end

/-- A peer that is given one address more and then removed, on an engine that accepts everything. The
list mirrors the engine all the way. -/
theorem mirrors_iff_faithful_while_extending :
    let config : TunnelSettings :=
      ⟨"wg0", "YNqHbfBQKaGvzefSSLXYKoaaI9d6DvrULEgqRaD5mXo=", 51820, "10.0.0.1/24"⟩
    let key := "xTIBA5rboUvnH4htodjb6e697QjLERt1NAB4mZqp8Dg="
    let changes : List Change := [.insert ⟨key, ["10.0.0.2/32"], none, none⟩,
      .insert ⟨key, ["10.0.0.2/32", "10.0.0.3/32"], none, some 25⟩, .erase key]
    (∀ change ∈ changes, change.FitsLines) ∧
      ∀ earlier, earlier <+: changes →
        Mirrors ((backend bare).knownPeers (changed bare () config ∅ earlier))
          (changedTable bare () config ∅ earlier) := by
  intro config key changes
  have hline : ∀ change ∈ changes, change.FitsLines := by
    simp only [changes, List.forall_mem_cons, List.not_mem_nil, false_implies, implies_true,
      and_true]
    exact ⟨by simp [Change.FitsLines, FitsLines, Setting.OnLine, Setting.value],
      by simp [Change.FitsLines, FitsLines, Setting.OnLine, Setting.value], trivial⟩
  refine ⟨hline, (mirrors_iff_faithful bare () config ∅ changes hline).2.mpr ?_⟩
  intro before change after heq _
  -- the change is one of the three
  rcases before with _ | ⟨_, _ | ⟨_, _ | ⟨_, before⟩⟩⟩
  · obtain rfl := (List.cons.inj heq).1
    decide +kernel
  · simp only [changes, List.cons_append, List.nil_append, List.cons.injEq] at heq
    obtain ⟨rfl, rfl, -⟩ := heq
    decide +kernel
  · simp only [changes, List.cons_append, List.nil_append, List.cons.injEq] at heq
    obtain ⟨rfl, rfl, rfl, -⟩ := heq
    decide +kernel
  · simp [changes] at heq

/-- A peer that is added twice with different addresses: the engine allows it both, and the list
tells of the second alone. -/
theorem list_forgets_extension :
    let config : TunnelSettings :=
      ⟨"wg0", "YNqHbfBQKaGvzefSSLXYKoaaI9d6DvrULEgqRaD5mXo=", 51820, "10.0.0.1/24"⟩
    let peer (address : String) : TunnelPeer :=
      ⟨"xTIBA5rboUvnH4htodjb6e697QjLERt1NAB4mZqp8Dg=", [address], none, none⟩
    let changes : List Change := [.insert (peer "10.0.0.2/32"), .insert (peer "10.0.0.3/32")]
    let listed := (backend bare).knownPeers (changed bare () config ∅ changes)
    let table := changedTable bare () config ∅ changes
    listed = [peer "10.0.0.3/32"] ∧
      table.values = [⟨none, none, ["10.0.0.2/32", "10.0.0.3/32"]⟩] ∧ ¬Mirrors listed table := by
  intro config peer changes listed table
  have hlisted : listed = [peer "10.0.0.3/32"] := by decide +kernel
  have htable : table.values = [⟨none, none, ["10.0.0.2/32", "10.0.0.3/32"]⟩] := by decide +kernel
  clear_value listed table
  refine ⟨hlisted, htable, fun h => ?_⟩
  obtain ⟨key, entry, -, hentry, -, -, hallowed⟩ := h.known (peer "10.0.0.3/32") (by simp [hlisted])
  have hmem : entry ∈ table.values := KeyMap.mem_values_iff.mpr ⟨key.hex, hentry⟩
  rw [htable, List.mem_singleton] at hmem
  have hforgotten := (hallowed "10.0.0.2/32").mp (by simp [hmem])
  simp [peer] at hforgotten

end EngineTunnel

end OverlayVpn
