import OverlayVpn.Engine.Device
import OverlayVpn.Engine.Request
import OverlayVpn.Proofs.Net.Ipv4
import OverlayVpn.Proofs.Store.KeyMap

set_option autoImplicit false

/-! # What the lines of a request mean

An engine keeps the peers of a device in a table, under their keys in hexadecimal. A line with a
public key selects a peer, a new one if need be; the lines after it apply to this peer: an endpoint
and an interval replace what was there, an allowed address is added to those that were there, and
`remove` drops the peer. A body of settings without line breaks means the settings one after
another (`apply_body`). -/

namespace OverlayVpn.Engine

open Text

/-- A peer in an engine's table. -/
structure PeerEntry where
  endpoint : Option String := none
  keepalive : Option String := none
  allowedIps : List String := []
  deriving DecidableEq

/-- The peers by their keys, and the peer that the next line applies to. -/
structure PeerTable where
  peers : KeyMap PeerEntry
  selected : Option String := none

namespace PeerTable

/-- Changes the selected peer. -/
def adjust (f : PeerEntry → PeerEntry) (t : PeerTable) : PeerTable :=
  match t.selected with
  | some key => { t with peers := t.peers.insert key (f ((t.peers.get? key).getD {})) }
  | none => t

/-- The table after a line `name=value`. -/
def set (t : PeerTable) (name value : String) : PeerTable :=
  match name with
  | "public_key" => adjust id { t with selected := some value }
  | "endpoint" => t.adjust ({ · with endpoint := some value })
  | "persistent_keepalive_interval" => t.adjust ({ · with keepalive := some value })
  | "allowed_ip" => t.adjust fun peer => { peer with allowedIps := peer.allowedIps ++ [value] }
  | "remove" =>
    match t.selected with
    | some key => { peers := t.peers.erase key }
    | none => t
  | _ => t

/-- The table after a line. -/
def add (t : PeerTable) (line : String) : PeerTable :=
  match cut '=' line with
  | some (name, value) => t.set name value
  | none => t

/-- The peers after a body. -/
def apply (peers : KeyMap PeerEntry) (body : String) : KeyMap PeerEntry :=
  ((splitOn '\n' body).foldl add { peers }).peers

end PeerTable

/-! ## Bodies as lists of settings -/

/-- A setting fits on its line. -/
def Setting.OnLine (s : Setting) : Prop := '\n' ∉ s.value.toList

theorem Setting.not_mem_name (s : Setting) : '\n' ∉ s.name.toList ∧ '=' ∉ s.name.toList := by
  have hname : s.name ∈ ["private_key", "listen_port", "public_key", "endpoint", "allowed_ip",
      "persistent_keepalive_interval", "remove"] := by
    cases s <;> simp [name]
  revert hname
  generalize s.name = name
  revert name
  decide

theorem Setting.toList_line (s : Setting) :
    s.line.toList = s.name.toList ++ '=' :: s.value.toList ++ ['\n'] := by
  simp [line]

theorem toList_body (settings : List Setting) :
    (body settings).toList = settings.flatMap fun s => s.line.toList := by
  rw [body, toList_join, List.flatMap_map]

/-- The lines of a body, and nothing after the last. -/
theorem splitOn_body {settings : List Setting} (h : ∀ s ∈ settings, s.OnLine) :
    splitOn '\n' (body settings) = settings.map (fun s => s.name ++ "=" ++ s.value) ++ [""] := by
  rw [splitOn, toList_body]
  induction settings with
  | nil => rfl
  | cons s settings ih =>
      have hpiece : ∀ c ∈ s.name.toList ++ '=' :: s.value.toList, (c == '\n') = false := by
        intro c hc
        rw [beq_eq_false_iff_ne]
        rintro rfl
        rcases List.mem_append.mp hc with hname | hvalue
        · exact s.not_mem_name.1 hname
        · rcases List.mem_cons.mp hvalue with heq | hvalue
          · cases heq
          · exact h s List.mem_cons_self hvalue
      have hline : String.ofList (s.name.toList ++ '=' :: s.value.toList) =
          s.name ++ "=" ++ s.value := by
        apply String.toList_inj.mp
        simp
      rw [List.flatMap_cons, s.toList_line, List.append_assoc, List.singleton_append,
        pieces_append hpiece rfl, List.map_cons, hline,
        ih fun s' hs' => h s' (List.mem_cons_of_mem s hs')]
      rfl

theorem PeerTable.add_line (t : PeerTable) (s : Setting) :
    t.add (s.name ++ "=" ++ s.value) = t.set s.name s.value := by
  have hcut : cut '=' (s.name ++ "=" ++ s.value) = some (s.name, s.value) := by
    rw [cut, String.toList_append, String.toList_append, List.append_assoc]
    show (cutAt '=' (s.name.toList ++ '=' :: s.value.toList)).map _ = _
    rw [cutAt_append s.not_mem_name.2]
    simp
  rw [add, hcut]

/-- **A body means its settings one after another.** -/
theorem PeerTable.apply_body (peers : KeyMap PeerEntry) {settings : List Setting}
    (h : ∀ s ∈ settings, s.OnLine) :
    apply peers (body settings) =
      (settings.foldl (fun (t : PeerTable) s => t.set s.name s.value) { peers }).peers := by
  have hlast : ∀ t : PeerTable, t.add "" = t := fun t => rfl
  rw [apply, splitOn_body h, List.foldl_append, List.foldl_cons, List.foldl_nil, hlast,
    List.foldl_map]
  simp only [add_line]

/-! ## Requests about one peer -/

theorem onLine_publicKey (key : Key) : (Setting.publicKey key).OnLine := by
  have hdigit : ∀ n < 16, Key.hexDigit n ≠ '\n' := by decide
  intro hmem
  simp only [Setting.value, Key.hex, String.toList_ofList, Key.hexOf, List.mem_flatMap] at hmem
  obtain ⟨b, -, hb⟩ := hmem
  have hlt : b.toNat < 256 := b.toNat_lt
  rcases List.mem_cons.mp hb with heq | hb
  · exact hdigit (b.toNat / 16) (by omega) heq.symm
  · exact hdigit (b.toNat % 16) (by omega) (List.mem_singleton.mp hb).symm

theorem onLine_allowedIp (n : Network) : (Setting.allowedIp n.text).OnLine := by
  intro hmem
  have hblank : isBlank '\n' = false := Network.isBlank_of_mem_text hmem
  cases hblank

/-- The request that allows a peer one more address. -/
def allowBody (key : Key) (cidr : String) : String := body [.publicKey key, .allowedIp cidr]

/-- The request that drops a peer. -/
def dropBody (key : Key) : String := body [.publicKey key, .remove]

theorem onLine_allow (key : Key) {cidr : String} (h : (Setting.allowedIp cidr).OnLine) :
    ∀ s ∈ [Setting.publicKey key, .allowedIp cidr], s.OnLine := by
  simp [onLine_publicKey, h]

theorem onLine_drop (key : Key) : ∀ s ∈ [Setting.publicKey key, .remove], s.OnLine := by
  have hremove : Setting.remove.OnLine := by simp [Setting.OnLine, Setting.value]
  simp [onLine_publicKey, hremove]

/-- The addresses that a key is allowed. -/
def allowedIps (peers : KeyMap PeerEntry) (key : Key) : List String :=
  ((peers.get? key.hex).map (·.allowedIps)).getD []

/-- **An address that is allowed comes after those that were.** -/
theorem allowedIps_allowBody (peers : KeyMap PeerEntry) (key : Key) {cidr : String}
    (h : (Setting.allowedIp cidr).OnLine) :
    allowedIps (PeerTable.apply peers (allowBody key cidr)) key = allowedIps peers key ++ [cidr] := by
  rw [allowBody, PeerTable.apply_body peers (onLine_allow key h)]
  simp only [List.foldl_cons, List.foldl_nil, Setting.name, Setting.value, PeerTable.set,
    PeerTable.adjust, allowedIps, KeyMap.get?_insert_self, Option.map_some, Option.getD_some, id_eq]
  cases peers.get? key.hex <;> rfl

/-- **A peer that is dropped is gone**, and the others are as they were. -/
theorem get?_dropBody (peers : KeyMap PeerEntry) (key : Key) (hex : String) :
    (PeerTable.apply peers (dropBody key)).get? hex = if hex = key.hex then none else peers.get? hex := by
  rw [dropBody, PeerTable.apply_body peers (onLine_drop key)]
  simp only [List.foldl_cons, List.foldl_nil, Setting.name, Setting.value, PeerTable.set,
    PeerTable.adjust, KeyMap.get?_erase, KeyMap.get?_insert]
  split <;> rfl

/-- A peer that is dropped is allowed nothing. -/
theorem allowedIps_dropBody (peers : KeyMap PeerEntry) (key : Key) :
    allowedIps (PeerTable.apply peers (dropBody key)) key = [] := by
  rw [allowedIps, get?_dropBody, if_pos rfl]
  rfl

/-! ## Engines that keep to the protocol -/

/-- An engine accepts every body of settings that fit on their lines, and its devices' peers, as
`peersOf` tells them, are then what the body means. -/
structure Obeys {ω δ : Type} (e : Engine ω δ) (peersOf : δ → ω → KeyMap PeerEntry) : Prop where
  accepts : ∀ (device : δ) (settings : List Setting) (w : ω), (∀ s ∈ settings, s.OnLine) →
    (e.set device (body settings) w).1 = .ok ()
  applies : ∀ (device : δ) (settings : List Setting) (w : ω), (∀ s ∈ settings, s.OnLine) →
    peersOf device (e.set device (body settings) w).2 =
      PeerTable.apply (peersOf device w) (body settings)

/-- An engine accepts every request that it is sent. -/
structure Accepts {ω δ : Type} (e : Engine ω δ) : Prop where
  create : ∀ (interface : String) (w : ω), (e.create interface w).1.isOk = true
  set : ∀ (device : δ) (body : String) (w : ω), (e.set device body w).1 = .ok ()
  activate : ∀ (device : δ) (address : String) (w : ω), (e.activate device address w).1 = .ok ()

/-- An engine that is nothing but the table of its only device. -/
def bare : Engine (KeyMap PeerEntry) Unit where
  create _ _ := (.ok (), ∅)
  set _ body peers := (.ok (), PeerTable.apply peers body)
  get _ peers := (.ok [], peers)
  activate _ _ peers := (.ok (), peers)
  close _ _ peers := (.closed, peers)
  deleteLink _ peers := (.ok (), peers)
  discard _ _ := ∅

theorem bare_obeys : Obeys bare fun _ peers => peers where
  accepts := fun _ _ _ _ => rfl
  applies := fun _ _ _ _ => rfl

theorem bare_accepts : Accepts bare := ⟨fun _ _ => rfl, fun _ _ _ => rfl, fun _ _ _ => rfl⟩

end OverlayVpn.Engine
