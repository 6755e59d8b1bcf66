import OverlayVpn.Config.File
import OverlayVpn.Proofs.Toml.Bounds
import OverlayVpn.Proofs.Toml.Document

set_option autoImplicit false

/-! # A written configuration is read back

The entries of a configuration give that configuration (`ofEntries?_toEntries`), and they make a
document that can be written and read back, if its numbers fit in one. So the text of a
configuration holds that configuration, whatever its texts are and whether its optional keys are
given (`ofText?_text`). The numbers of a configuration that was read do fit
(`writable_of_ofText?`). -/

namespace OverlayVpn

open Text Toml

/-! ## Values -/

theorem Role.ofName?_name (role : Role) : ofName? role.name = some role := by cases role <;> rfl

theorem Strategy.ofName?_name (strategy : Strategy) : ofName? strategy.name = some strategy := by
  cases strategy <;> rfl

theorem RouteMode.ofName?_name (mode : RouteMode) : ofName? mode.name = some mode := by
  cases mode <;> rfl

namespace Config

theorem asNatural?_numberValue {bound n : Nat} (h : n < bound) :
    asNatural? bound (numberValue n) = some n := by
  rw [numberValue, asNatural?, if_pos (by omega)]
  rfl

theorem asWord16?_numberValue (n : UInt16) : asWord16? (numberValue n.toNat) = some n := by
  rw [asWord16?, asNatural?_numberValue n.toNat_lt, Option.map_some, UInt16.ofNat_toNat]

theorem asWord64?_numberValue (n : UInt64) : asWord64? (numberValue n.toNat) = some n := by
  rw [asWord64?, asNatural?_numberValue n.toNat_lt, Option.map_some, UInt64.ofNat_toNat]

theorem asTexts?_map_string (texts : List String) :
    asTexts? (.array (texts.map .string)) = some texts := by
  rw [asTexts?]
  induction texts with
  | nil => rfl
  | cons s texts ih =>
      rw [List.map_cons, List.mapM_cons, ih]
      rfl

theorem asChoice?_string {α : Type} (choose : String → Option α) (s : String) :
    asChoice? choose (.string s) = choose s := rfl

/-! ## Fields -/

section Fields

variable {α : Type} {entries : Entries} {name : String} {v : Toml}

theorem lookup_of_mem (hkeys : (entries.map (·.1)).Nodup) (h : (name, v) ∈ entries) :
    entries.lookup name = some v := by
  obtain ⟨front, back, rfl⟩ := List.append_of_mem h
  refine List.lookup_eq_some_iff.mpr ⟨front, back, rfl, fun e he => bne_iff_ne.mpr ?_⟩
  rintro rfl
  rw [List.map_append, List.nodup_append] at hkeys
  exact hkeys.2.2 _ (List.mem_map_of_mem he) _ (by simp) rfl

/-- A key that is there once has the value given for it. -/
theorem field?_of_mem (hkeys : (entries.map (·.1)).Nodup) (h : (name, v) ∈ entries)
    (read : Toml → Option α) (default : α) : field? entries name read default = read v := by
  rw [field?, lookup_of_mem hkeys h]

/-- A key that may be left out has a value exactly when one was given. -/
theorem optional?_optionalEntry {front back : Entries} (hfront : name ∉ front.map (·.1))
    (hback : name ∉ back.map (·.1)) (given : Option String) :
    optional? (front ++ optionalEntry name given ++ back) name asText? = some given := by
  have hlookup : (front ++ optionalEntry name given ++ back).lookup name = given.map .string := by
    rw [List.lookup_append, List.lookup_append, lookup_none hfront, lookup_none hback]
    cases given with
    | none => rfl
    | some s => simp [optionalEntry]
  rw [optional?, hlookup]
  cases given <;> rfl

end Fields

/-! ## Parts -/

/-- The entries of the server's settings. -/
def serverEntries (c : ServerConfig) : Entries :=
  [("interface_name", .string c.interfaceName)] ++ optionalEntry "private_key" c.privateKey ++
    [("listen_port", numberValue c.listenPort.toNat),
      ("server_address", .string c.serverAddress),
      ("data_dir", .string c.dataDir),
      ("stop_timeout_secs", numberValue c.stopTimeoutSecs.toNat)]

/-- The entries of the pool's settings. -/
def poolEntries (c : PoolConfig) : Entries :=
  [("cidr", .string c.cidr), ("gateway", .string c.gateway), ("strategy", .string c.strategy.name)]

/-- The entries of the engine's settings. -/
def engineEntries (c : EngineConfig) : Entries :=
  [("command", .string c.command), ("args", .array (c.args.map .string)),
    ("socket_dir", .string c.socketDir), ("startup_timeout_ms", numberValue c.startupTimeoutMs.toNat)]

/-- The entries of the client's settings. -/
def clientEntries (c : ClientConfig) : Entries :=
  [("interface_name", .string c.interfaceName)] ++ optionalEntry "session_file" c.sessionFile ++
    [("keepalive_secs", numberValue c.keepaliveSecs.toNat),
      ("route_mode", .string c.routeMode.name),
      ("tunnel_network", .string c.tunnelNetwork),
      ("probe_timeout_secs", numberValue c.probeTimeoutSecs.toNat),
      ("tunnel_probe_timeout_secs", numberValue c.tunnelProbeTimeoutSecs.toNat),
      ("handshake_grace_secs", numberValue c.handshakeGraceSecs.toNat)]

/-- The entries that are no tables. -/
def plainEntries (c : Config) : Entries :=
  [("role", .string c.role.name), ("log_level", .string c.logLevel)]

/-- The tables, by their headers. -/
def parts (c : Config) : List (String × Entries) :=
  [("server", serverEntries c.server), ("ipam", poolEntries c.pool),
    ("engine", engineEntries c.engine), ("client", clientEntries c.client)]

theorem toEntries_eq (c : Config) : c.toEntries = c.plainEntries ++ c.parts.map headed := rfl

theorem serverEntries_keys (c : ServerConfig) : ((serverEntries c).map (·.1)).Nodup := by
  cases h : c.privateKey <;> simp [serverEntries, optionalEntry, h]

theorem ofToml?_serverEntries (c : ServerConfig) :
    ServerConfig.ofToml? (.table .header (serverEntries c)) = some c := by
  have hkeys := serverEntries_keys c
  have hinterface : ("interface_name", .string c.interfaceName) ∈ serverEntries c := by
    simp [serverEntries]
  have hkey : optional? (serverEntries c) "private_key" asText? = some c.privateKey :=
    optional?_optionalEntry (by simp) (by simp) c.privateKey
  have hport : ("listen_port", numberValue c.listenPort.toNat) ∈ serverEntries c := by
    simp [serverEntries]
  have haddress : ("server_address", .string c.serverAddress) ∈ serverEntries c := by
    simp [serverEntries]
  have hdir : ("data_dir", .string c.dataDir) ∈ serverEntries c := by simp [serverEntries]
  have hstop : ("stop_timeout_secs", numberValue c.stopTimeoutSecs.toNat) ∈ serverEntries c := by
    simp [serverEntries]
  rw [ServerConfig.ofToml?, asPart?]
  simp only [field?_of_mem hkeys hinterface, hkey, field?_of_mem hkeys hport,
    field?_of_mem hkeys haddress, field?_of_mem hkeys hdir, field?_of_mem hkeys hstop, asText?,
    asWord16?_numberValue, asWord64?_numberValue, Option.bind_eq_bind, Option.bind_some]
  rfl

theorem poolEntries_keys (c : PoolConfig) : ((poolEntries c).map (·.1)).Nodup := by
  simp [poolEntries]

theorem ofToml?_poolEntries (c : PoolConfig) :
    PoolConfig.ofToml? (.table .header (poolEntries c)) = some c := by
  have hkeys := poolEntries_keys c
  have hcidr : ("cidr", .string c.cidr) ∈ poolEntries c := by simp [poolEntries]
  have hgateway : ("gateway", .string c.gateway) ∈ poolEntries c := by simp [poolEntries]
  have hstrategy : ("strategy", .string c.strategy.name) ∈ poolEntries c := by simp [poolEntries]
  rw [PoolConfig.ofToml?, asPart?]
  simp only [field?_of_mem hkeys hcidr, field?_of_mem hkeys hgateway,
    field?_of_mem hkeys hstrategy, asText?, asChoice?_string, Strategy.ofName?_name,
    Option.bind_eq_bind, Option.bind_some]
  rfl

theorem engineEntries_keys (c : EngineConfig) : ((engineEntries c).map (·.1)).Nodup := by
  simp [engineEntries]

theorem ofToml?_engineEntries (c : EngineConfig) :
    EngineConfig.ofToml? (.table .header (engineEntries c)) = some c := by
  have hkeys := engineEntries_keys c
  have hcommand : ("command", .string c.command) ∈ engineEntries c := by simp [engineEntries]
  have hargs : ("args", .array (c.args.map .string)) ∈ engineEntries c := by simp [engineEntries]
  have hdir : ("socket_dir", .string c.socketDir) ∈ engineEntries c := by simp [engineEntries]
  have hstart : ("startup_timeout_ms", numberValue c.startupTimeoutMs.toNat) ∈ engineEntries c := by
    simp [engineEntries]
  rw [EngineConfig.ofToml?, asPart?]
  simp only [field?_of_mem hkeys hcommand, field?_of_mem hkeys hargs, field?_of_mem hkeys hdir,
    field?_of_mem hkeys hstart, asText?, asTexts?_map_string, asWord64?_numberValue,
    Option.bind_eq_bind, Option.bind_some]
  rfl

theorem clientEntries_keys (c : ClientConfig) : ((clientEntries c).map (·.1)).Nodup := by
  cases h : c.sessionFile <;> simp [clientEntries, optionalEntry, h]

theorem ofToml?_clientEntries (c : ClientConfig) :
    ClientConfig.ofToml? (.table .header (clientEntries c)) = some c := by
  have hkeys := clientEntries_keys c
  have hinterface : ("interface_name", .string c.interfaceName) ∈ clientEntries c := by
    simp [clientEntries]
  have hsession : optional? (clientEntries c) "session_file" asText? = some c.sessionFile :=
    optional?_optionalEntry (by simp) (by simp) c.sessionFile
  have hkeepalive : ("keepalive_secs", numberValue c.keepaliveSecs.toNat) ∈ clientEntries c := by
    simp [clientEntries]
  have hmode : ("route_mode", .string c.routeMode.name) ∈ clientEntries c := by
    simp [clientEntries]
  have hnetwork : ("tunnel_network", .string c.tunnelNetwork) ∈ clientEntries c := by
    simp [clientEntries]
  have hprobe : ("probe_timeout_secs", numberValue c.probeTimeoutSecs.toNat) ∈ clientEntries c := by
    simp [clientEntries]
  have htunnel : ("tunnel_probe_timeout_secs", numberValue c.tunnelProbeTimeoutSecs.toNat) ∈
      clientEntries c := by
    simp [clientEntries]
  have hgrace : ("handshake_grace_secs", numberValue c.handshakeGraceSecs.toNat) ∈
      clientEntries c := by
    simp [clientEntries]
  rw [ClientConfig.ofToml?, asPart?]
  simp only [field?_of_mem hkeys hinterface, hsession, field?_of_mem hkeys hkeepalive,
    field?_of_mem hkeys hmode, field?_of_mem hkeys hnetwork, field?_of_mem hkeys hprobe,
    field?_of_mem hkeys htunnel, field?_of_mem hkeys hgrace, asText?, asChoice?_string,
    RouteMode.ofName?_name, asWord16?_numberValue, asWord64?_numberValue, Option.bind_eq_bind,
    Option.bind_some]
  rfl

/-! ## Whole configurations -/

theorem toEntries_keys (c : Config) : (c.toEntries.map (·.1)).Nodup := by
  rw [toEntries_eq]
  simp [plainEntries, parts, headed]

/-- **The entries of a configuration give that configuration.** -/
theorem ofEntries?_toEntries (c : Config) : ofEntries? c.toEntries = some c := by
  have hkeys := c.toEntries_keys
  have hrole : ("role", .string c.role.name) ∈ c.toEntries := by simp [toEntries]
  have hlevel : ("log_level", .string c.logLevel) ∈ c.toEntries := by simp [toEntries]
  have hpart : ∀ p ∈ c.parts, headed p ∈ c.toEntries := fun p hp => by
    rw [toEntries_eq]
    exact List.mem_append_right _ (List.mem_map_of_mem hp)
  have hserver : headed ("server", serverEntries c.server) ∈ c.toEntries :=
    hpart _ (by simp [parts])
  have hpool : headed ("ipam", poolEntries c.pool) ∈ c.toEntries := hpart _ (by simp [parts])
  have hengine : headed ("engine", engineEntries c.engine) ∈ c.toEntries :=
    hpart _ (by simp [parts])
  have hclient : headed ("client", clientEntries c.client) ∈ c.toEntries :=
    hpart _ (by simp [parts])
  rw [ofEntries?]
  simp only [field?_of_mem hkeys hrole, field?_of_mem hkeys hlevel, field?_of_mem hkeys hserver,
    field?_of_mem hkeys hpool, field?_of_mem hkeys hengine, field?_of_mem hkeys hclient,
    asChoice?_string, Role.ofName?_name, asText?, ofToml?_serverEntries, ofToml?_poolEntries,
    ofToml?_engineEntries, ofToml?_clientEntries, Option.bind_eq_bind, Option.bind_some]
  rfl

/-! ## What can be written -/

/-- A number that fits in a document. -/
def Fits (n : UInt64) : Prop := n.toNat < Decimal.signedBound

instance (n : UInt64) : Decidable (Fits n) := inferInstanceAs (Decidable (_ < _))

theorem writable_iff (c : Config) : c.writable = true ↔
    Fits c.server.stopTimeoutSecs ∧
    Fits c.engine.startupTimeoutMs ∧
    Fits c.client.probeTimeoutSecs ∧
    Fits c.client.tunnelProbeTimeoutSecs ∧
    Fits c.client.handshakeGraceSecs := by
  simp [writable, Fits]

theorem writable_numberValue (depth : Nat) {n : Nat} (h : n < Decimal.signedBound) :
    Writable depth (numberValue n) :=
  .integer depth (by omega) (by omega)

theorem writable_word16 (depth : Nat) (n : UInt16) : Writable depth (numberValue n.toNat) :=
  writable_numberValue depth (Nat.lt_trans n.toNat_lt (by decide))

/-- That an entry has a bare key and a value that can be written. -/
def EntryFits (e : String × Toml) : Prop := IsBare e.1 ∧ Writable maxDepth e.2

theorem entryFits_string {name : String} (h : IsBare name) (s : String) :
    EntryFits (name, .string s) := ⟨h, .string _ s⟩

theorem entryFits_optionalEntry {name : String} (h : IsBare name) (given : Option String) :
    ∀ e ∈ optionalEntry name given, EntryFits e := by
  cases given with
  | none => exact List.forall_mem_nil _
  | some s => exact List.forall_mem_singleton.mpr (entryFits_string h s)

theorem entryFits_word16 {name : String} (h : IsBare name) (n : UInt16) :
    EntryFits (name, numberValue n.toNat) := ⟨h, writable_word16 _ n⟩

theorem entryFits_word64 {name : String} (h : IsBare name) {n : UInt64}
    (hn : Fits n) : EntryFits (name, numberValue n.toNat) :=
  ⟨h, writable_numberValue _ hn⟩

theorem entryFits_texts {name : String} (h : IsBare name) (texts : List String) :
    EntryFits (name, .array (texts.map .string)) := by
  refine ⟨h, show Writable (78 + 1) _ from .array fun v hv => ?_⟩
  obtain ⟨s, -, rfl⟩ := List.mem_map.mp hv
  exact .string _ s

theorem serverEntries_fit {c : ServerConfig}
    (hstop : Fits c.stopTimeoutSecs) :
    ∀ e ∈ serverEntries c, EntryFits e := by
  simp only [serverEntries, List.forall_mem_append, List.forall_mem_cons, List.not_mem_nil,
    false_implies, implies_true, and_true]
  exact ⟨⟨entryFits_string (by decide +kernel) _, entryFits_optionalEntry (by decide +kernel) _⟩,
    entryFits_word16 (by decide +kernel) _, entryFits_string (by decide +kernel) _,
    entryFits_string (by decide +kernel) _, entryFits_word64 (by decide +kernel) hstop⟩

theorem poolEntries_fit (c : PoolConfig) : ∀ e ∈ poolEntries c, EntryFits e := by
  simp only [poolEntries, List.forall_mem_cons, List.not_mem_nil, false_implies, implies_true,
    and_true]
  exact ⟨entryFits_string (by decide +kernel) _, entryFits_string (by decide +kernel) _,
    entryFits_string (by decide +kernel) _⟩

theorem engineEntries_fit {c : EngineConfig}
    (hstart : Fits c.startupTimeoutMs) :
    ∀ e ∈ engineEntries c, EntryFits e := by
  simp only [engineEntries, List.forall_mem_cons, List.not_mem_nil, false_implies, implies_true,
    and_true]
  exact ⟨entryFits_string (by decide +kernel) _, entryFits_texts (by decide +kernel) _,
    entryFits_string (by decide +kernel) _, entryFits_word64 (by decide +kernel) hstart⟩

theorem clientEntries_fit {c : ClientConfig}
    (hprobe : Fits c.probeTimeoutSecs)
    (htunnel : Fits c.tunnelProbeTimeoutSecs)
    (hgrace : Fits c.handshakeGraceSecs) :
    ∀ e ∈ clientEntries c, EntryFits e := by
  simp only [clientEntries, List.forall_mem_append, List.forall_mem_cons, List.not_mem_nil,
    false_implies, implies_true, and_true]
  exact ⟨⟨entryFits_string (by decide +kernel) _, entryFits_optionalEntry (by decide +kernel) _⟩,
    entryFits_word16 (by decide +kernel) _, entryFits_string (by decide +kernel) _,
    entryFits_string (by decide +kernel) _, entryFits_word64 (by decide +kernel) hprobe,
    entryFits_word64 (by decide +kernel) htunnel, entryFits_word64 (by decide +kernel) hgrace⟩

/-- A configuration with numbers that fit makes a document. -/
theorem laid_of_writable {c : Config} (h : c.writable = true) : Laid c.plainEntries c.parts := by
  obtain ⟨hstop, hstart, hprobe, htunnel, hgrace⟩ := (writable_iff c).mp h
  have hheaders : ∀ name ∈ ["server", "ipam", "engine", "client"], IsBare name := by
    decide +kernel
  have hparts {P : String × Entries → Prop} (hserver : P ("server", serverEntries c.server))
      (hpool : P ("ipam", poolEntries c.pool)) (hengine : P ("engine", engineEntries c.engine))
      (hclient : P ("client", clientEntries c.client)) : ∀ p ∈ c.parts, P p := by
    simp only [parts, List.forall_mem_cons, List.not_mem_nil, false_implies, implies_true, and_true]
    exact ⟨hserver, hpool, hengine, hclient⟩
  exact {
    keys := by simp [plainEntries, parts]
    bare := fun p hp => hheaders p.1 (List.mem_map_of_mem hp)
    plain := by
      simp only [plainEntries, List.forall_mem_cons, List.not_mem_nil, false_implies, implies_true,
        and_true]
      exact ⟨entryFits_string (by decide +kernel) _, entryFits_string (by decide +kernel) _⟩
    inside := hparts ⟨serverEntries_keys _, serverEntries_fit hstop⟩
      ⟨poolEntries_keys _, poolEntries_fit _⟩ ⟨engineEntries_keys _, engineEntries_fit hstart⟩
      ⟨clientEntries_keys _, clientEntries_fit hprobe htunnel hgrace⟩ }

/-- **What is written is read back as the same configuration.** -/
theorem ofText?_text {c : Config} (h : c.writable = true) : ofText? c.text = some c := by
  rw [ofText?, text, toEntries_eq, read_text (laid_of_writable h), ← toEntries_eq, Option.bind_some,
    ofEntries?_toEntries]

/-! ## What was read -/

theorem fits_of_asWord64? {v : Toml} {n : UInt64} (hv : Bounded v) (h : asWord64? v = some n) :
    Fits n := by
  obtain ⟨k, hk, rfl⟩ := Option.map_eq_some_iff.mp h
  cases hv with
  | @integer m hm =>
      simp only [asNatural?] at hk
      split at hk
      · next hrange =>
          obtain rfl := Option.some.inj hk
          rw [Fits, UInt64.toNat_ofNat_of_lt' (by omega)]
          omega
      · cases hk
  | _ => cases hk

/-- What holds of a default and of all that is read of bounded values holds of a field. -/
theorem field?_forall {α : Type} {P : α → Prop} {entries : Entries} (hentries : entries.AllBounded)
    {name : String} {read : Toml → Option α} {default : α} (hdefault : P default)
    (hread : ∀ {v : Toml} {a : α}, Bounded v → read v = some a → P a) {a : α}
    (h : field? entries name read default = some a) : P a := by
  unfold field? at h
  split at h
  · next hfound => exact hread (hentries.lookup hfound) h
  · exact Option.some.inj h ▸ hdefault

theorem asPart?_bounded {names : List String} {needed : Nat} {v : Toml} (hv : Bounded v)
    {entries : Entries} (h : asPart? names needed v = some entries) : entries.AllBounded := by
  have hzip : ∀ items : List Toml, (∀ v ∈ items, Bounded v) →
      (if items.length < needed then none else some (names.zip items)) = some entries →
      entries.AllBounded := by
    intro items hitems h
    split at h
    · cases h
    · obtain rfl := Option.some.inj h
      exact fun e he => hitems e.2 (List.of_mem_zip he).2
  cases hv with
  | table hinside => exact Option.some.inj h ▸ hinside
  | array hitems => exact hzip _ hitems h
  | tables hitems => exact hzip _ hitems h
  | _ => cases h

theorem server_fits {v : Toml} {c : ServerConfig} (hv : Bounded v)
    (h : ServerConfig.ofToml? v = some c) : Fits c.stopTimeoutSecs := by
  simp only [ServerConfig.ofToml?, Option.bind_eq_bind, Option.bind_eq_some_iff] at h
  obtain ⟨entries, hpart, _, -, _, -, _, -, _, -, _, -, stop, hstop, h⟩ := h
  obtain rfl := Option.some.inj h
  exact field?_forall (asPart?_bounded hv hpart) (by decide) fits_of_asWord64? hstop

theorem engine_fits {v : Toml} {c : EngineConfig} (hv : Bounded v)
    (h : EngineConfig.ofToml? v = some c) : Fits c.startupTimeoutMs := by
  simp only [EngineConfig.ofToml?, Option.bind_eq_bind, Option.bind_eq_some_iff] at h
  obtain ⟨entries, hpart, _, -, _, -, _, -, start, hstart, h⟩ := h
  obtain rfl := Option.some.inj h
  exact field?_forall (asPart?_bounded hv hpart) (by decide) fits_of_asWord64? hstart

theorem client_fits {v : Toml} {c : ClientConfig} (hv : Bounded v)
    (h : ClientConfig.ofToml? v = some c) :
    Fits c.probeTimeoutSecs ∧ Fits c.tunnelProbeTimeoutSecs ∧ Fits c.handshakeGraceSecs := by
  simp only [ClientConfig.ofToml?, Option.bind_eq_bind, Option.bind_eq_some_iff] at h
  obtain ⟨entries, hpart, _, -, _, -, _, -, _, -, _, -, probe, hprobe, tunnel, htunnel, grace,
    hgrace, h⟩ := h
  obtain rfl := Option.some.inj h
  have hentries := asPart?_bounded hv hpart
  exact ⟨field?_forall hentries (by decide) fits_of_asWord64? hprobe,
    field?_forall hentries (by decide) fits_of_asWord64? htunnel,
    field?_forall hentries (by decide) fits_of_asWord64? hgrace⟩

/-- **The numbers of a configuration that was read fit in a document.** -/
theorem writable_of_ofText? {s : String} {c : Config} (h : ofText? s = some c) :
    c.writable = true := by
  obtain ⟨entries, hread, h⟩ := Option.bind_eq_some_iff.mp h
  have hentries := read_bounded hread
  simp only [ofEntries?, Option.bind_eq_bind, Option.bind_eq_some_iff] at h
  obtain ⟨_, -, _, -, server, hserver, _, -, engine, hengine, client, hclient, h⟩ := h
  obtain rfl := Option.some.inj h
  have hstop := field?_forall hentries (P := fun c : ServerConfig => Fits c.stopTimeoutSecs)
    (by decide) server_fits hserver
  have hstart := field?_forall hentries (P := fun c : EngineConfig => Fits c.startupTimeoutMs)
    (by decide) engine_fits hengine
  have hclient := field?_forall hentries (P := fun c : ClientConfig =>
    Fits c.probeTimeoutSecs ∧ Fits c.tunnelProbeTimeoutSecs ∧ Fits c.handshakeGraceSecs)
    (by decide) client_fits hclient
  exact (writable_iff _).mpr ⟨hstop, hstart, hclient⟩

end Config

end OverlayVpn
