import OverlayVpn.Config.Load
import OverlayVpn.Proofs.Text.Blank

set_option autoImplicit false

/-! # What the environment changes in a configuration

A variable governs a setting (`Environment.Governs`) when the setting takes what the variable
stands for, and keeps its value where the variable stands for nothing. All variables govern their
settings (`governed_override`) but three. A role or a route mode that is not known stands for the
client's role and the full mode, so that these two are governed only where it makes no difference
(`governs_namedOr_iff`). The engine's arguments are replaced whenever their variable is set.
Overriding twice is overriding once (`override_override`). -/

namespace OverlayVpn

open Text

/-! ## Variables and settings -/

namespace Environment

variable {α : Type} {env : Environment} {name : String} {means : String → α → Prop}

/-- A variable stands for a value: it is set to a text that is not blank and means the value. -/
def Tells (env : Environment) (name : String) (means : String → α → Prop) (value : α) : Prop :=
  ∃ s, env.get? name = some s ∧ blank s = false ∧ means s value

/-- A variable governs a setting: the setting takes what the variable stands for, and keeps its value
where the variable stands for nothing. -/
def Governs (env : Environment) (name : String) (means : String → α → Prop) (before after : α) :
    Prop :=
  env.Tells name means after ∨ (∀ value, ¬env.Tells name means value) ∧ after = before

/-- A text names a value when it is the name that a file has for it, up to the case of ASCII
letters. -/
def Names (ofName? : String → Option α) (s : String) (value : α) : Prop :=
  ∃ name, ofName? name = some value ∧ lower name = lower s

/-- A variable is misnamed: it is set to a text that is not blank and names nothing. -/
def Misnamed (env : Environment) (name : String) (ofName? : String → Option α) : Prop :=
  ∃ s, env.get? name = some s ∧ blank s = false ∧ ∀ value, ¬Names ofName? s value

theorem filled?_eq_some_iff {s : String} :
    env.filled? name = some s ↔ env.get? name = some s ∧ blank s = false := by
  rw [filled?, Option.filter_eq_some_iff, Bool.not_eq_true']

/-- What is read of a variable is what it stands for. -/
theorem bind_filled?_eq_some_iff {read : String → Option α} {value : α} :
    (env.filled? name).bind read = some value ↔
      env.Tells name (fun s v => read s = some v) value := by
  simp only [Option.bind_eq_some_iff, filled?_eq_some_iff, Tells, and_assoc]

/-- A setting that takes what is found is governed, if just what the variable stands for is found. -/
theorem governs_getD {found : Option α} (h : ∀ value, found = some value ↔ env.Tells name means value)
    (before : α) : env.Governs name means before (found.getD before) := by
  cases found with
  | none =>
      exact Or.inr ⟨fun value htells => Option.some_ne_none value ((h value).mpr htells).symm, rfl⟩
  | some value => exact Or.inl ((h value).mp rfl)

theorem governs_read (read : String → Option α) (before : α) :
    env.Governs name (fun s v => read s = some v) before
      (((env.filled? name).bind read).getD before) :=
  governs_getD (fun _ => bind_filled?_eq_some_iff) before

theorem governs_text (before : String) :
    env.Governs name (fun s v => v = s) before ((env.filled? name).getD before) := by
  refine governs_getD (fun value => ?_) before
  rw [filled?_eq_some_iff, Tells]
  constructor
  · rintro ⟨hget, hfull⟩
    exact ⟨value, hget, hfull, rfl⟩
  · rintro ⟨s, hget, hfull, rfl⟩
    exact ⟨hget, hfull⟩

theorem governs_optional (before : Option String) :
    env.Governs name (fun s v => v = some s) before (env.filled? name <|> before) := by
  cases h : env.filled? name with
  | none =>
      refine Or.inr ⟨?_, rfl⟩
      rintro value ⟨s, hget, hfull, -⟩
      rw [filled?_eq_some_iff.mpr ⟨hget, hfull⟩] at h
      cases h
  | some s =>
      obtain ⟨hget, hfull⟩ := filled?_eq_some_iff.mp h
      exact Or.inl ⟨s, hget, hfull, rfl⟩

/-- What is read of a text in lower case is what the text names, if all names are in lower case. -/
theorem names_iff {ofName? : String → Option α}
    (h : ∀ s value, ofName? s = some value → lower s = s) {s : String} {value : α} :
    Names ofName? s value ↔ ofName? (lower s) = some value := by
  constructor
  · rintro ⟨name, hname, hsame⟩
    rw [← hsame, h name value hname, hname]
  · intro hread
    exact ⟨lower s, hread, h (lower s) value hread⟩

theorem governs_name {ofName? : String → Option α}
    (h : ∀ s value, ofName? s = some value → lower s = s) (before : α) :
    env.Governs name (Names ofName?) before
      (((env.filled? name).bind fun s => ofName? (lower s)).getD before) := by
  refine governs_getD (fun value => ?_) before
  simp only [bind_filled?_eq_some_iff, Tells, names_iff h]

section Misnamed

variable {ofName? : String → Option α} {default before : α}

/-- What a setting becomes when a text that names nothing stands for a default. -/
def namedOr (env : Environment) (name : String) (ofName? : String → Option α)
    (default before : α) : α :=
  ((env.filled? name).map fun s => (ofName? (lower s)).getD default).getD before

theorem misnamed_iff (h : ∀ s value, ofName? s = some value → lower s = s) :
    env.Misnamed name ofName? ↔ ∃ s, env.filled? name = some s ∧ ofName? (lower s) = none := by
  simp only [Misnamed, filled?_eq_some_iff, names_iff h, and_assoc, Option.eq_none_iff_forall_ne_some,
    ne_eq]

/-- A misnamed variable sets the default. -/
theorem namedOr_of_misnamed (h : ∀ s value, ofName? s = some value → lower s = s)
    (hmisnamed : env.Misnamed name ofName?) : env.namedOr name ofName? default before = default := by
  obtain ⟨s, hfilled, hnone⟩ := (misnamed_iff h).mp hmisnamed
  simp [namedOr, hfilled, hnone]

/-- A variable that is not misnamed governs. -/
theorem namedOr_of_not_misnamed (h : ∀ s value, ofName? s = some value → lower s = s)
    (hnamed : ¬env.Misnamed name ofName?) :
    env.namedOr name ofName? default before =
      ((env.filled? name).bind fun s => ofName? (lower s)).getD before := by
  rw [misnamed_iff h] at hnamed
  unfold namedOr
  cases hfilled : env.filled? name with
  | none => rfl
  | some s =>
      cases hread : ofName? (lower s) with
      | none => exact absurd ⟨s, hfilled, hread⟩ hnamed
      | some value => simp [hread]

/-- **A variable whose unknown names stand for a default** governs its setting exactly when it is not
misnamed or the setting has the default anyway. -/
theorem governs_namedOr_iff (h : ∀ s value, ofName? s = some value → lower s = s) :
    env.Governs name (Names ofName?) before (env.namedOr name ofName? default before) ↔
      (env.Misnamed name ofName? → before = default) := by
  by_cases hmisnamed : env.Misnamed name ofName?
  · rw [namedOr_of_misnamed h hmisnamed, imp_iff_right hmisnamed]
    obtain ⟨s, hget, hfull, hnone⟩ := hmisnamed
    have htells (value : α) : ¬env.Tells name (Names ofName?) value := by
      rintro ⟨s', hget', -, hnames⟩
      obtain rfl := Option.some.inj (hget.symm.trans hget')
      exact hnone value hnames
    rw [Governs, or_iff_right (htells default), and_iff_right htells, eq_comm]
  · rw [namedOr_of_not_misnamed h hmisnamed]
    exact iff_of_true (governs_name h before) fun hmis => absurd hmis hmisnamed

end Misnamed

end Environment

open Environment (Names)

/-! ## Names -/

theorem Role.lower_of_ofName? {s : String} {role : Role} (h : ofName? s = some role) :
    lower s = s := by
  unfold ofName? at h
  split at h <;> first | decide | cases h

theorem Strategy.lower_of_ofName? {s : String} {strategy : Strategy} (h : ofName? s = some strategy) :
    lower s = s := by
  unfold ofName? at h
  split at h <;> first | decide | cases h

theorem RouteMode.lower_of_ofName? {s : String} {mode : RouteMode} (h : ofName? s = some mode) :
    lower s = s := by
  unfold ofName? at h
  split at h <;> first | decide | cases h

/-! ## Items of a list -/

/-- The items of a list in a text: what stands between its commas, without blanks around it, where
anything is left. -/
def ItemsOf (s : String) (items : List String) : Prop :=
  ∃ parts : List (List Char), [','].intercalate parts = s.toList ∧ parts ≠ [] ∧
    (∀ part ∈ parts, ',' ∉ part) ∧
    items = (parts.map fun part => trim (String.ofList part)).filter (· ≠ "")

theorem itemsOf_commaParts (s : String) : ItemsOf s (commaParts s) := by
  refine ⟨pieces (· == ',') s.toList, intercalate_pieces ',' s.toList, pieces_ne_nil _ _, ?_, ?_⟩
  · intro part hpart hcomma
    exact absurd (not_of_mem_pieces hpart ',' hcomma) (by decide)
  · rw [commaParts, splitOn, List.map_map]
    refine List.filter_congr fun item _ => ?_
    rw [Bool.eq_iff_iff]
    simp

/-! ## Overriding -/

namespace Config

/-- Everything but the role and the route mode is as the variables and the settings before have it. -/
structure Governed (env : Environment) (c c' : Config) : Prop where
  logLevel : env.Governs "VEIL_LOG_LEVEL" (fun s v => v = s) c.logLevel c'.logLevel
  serverInterface : env.Governs "VEIL_SERVER_INTERFACE_NAME" (fun s v => v = s)
    c.server.interfaceName c'.server.interfaceName
  privateKey : env.Governs "VEIL_SERVER_PRIVATE_KEY" (fun s v => v = some s)
    c.server.privateKey c'.server.privateKey
  listenPort : env.Governs "VEIL_SERVER_LISTEN_PORT" (fun s n => Decimal.word16? s = some n)
    c.server.listenPort c'.server.listenPort
  serverAddress : env.Governs "VEIL_SERVER_ADDRESS" (fun s v => v = s)
    c.server.serverAddress c'.server.serverAddress
  dataDir : env.Governs "VEIL_SERVER_DATA_DIR" (fun s v => v = s)
    c.server.dataDir c'.server.dataDir
  stopTimeout : env.Governs "VEIL_SERVER_STOP_TIMEOUT_SECS"
    (fun s n => Decimal.word64? s = some n) c.server.stopTimeoutSecs c'.server.stopTimeoutSecs
  cidr : env.Governs "VEIL_IPAM_CIDR" (fun s v => v = s) c.pool.cidr c'.pool.cidr
  gateway : env.Governs "VEIL_IPAM_GATEWAY" (fun s v => v = s) c.pool.gateway c'.pool.gateway
  strategy : env.Governs "VEIL_IPAM_STRATEGY" (Names Strategy.ofName?)
    c.pool.strategy c'.pool.strategy
  command : env.Governs "VEIL_ENGINE_COMMAND" (fun s v => v = s)
    c.engine.command c'.engine.command
  argsSet : ∀ s, env.get? "VEIL_ENGINE_ARGS" = some s → ItemsOf s c'.engine.args
  argsUnset : env.get? "VEIL_ENGINE_ARGS" = none → c'.engine.args = c.engine.args
  socketDir : env.Governs "VEIL_ENGINE_SOCKET_DIR" (fun s v => v = s)
    c.engine.socketDir c'.engine.socketDir
  startupTimeout : c'.engine.startupTimeoutMs = c.engine.startupTimeoutMs
  clientInterface : env.Governs "VEIL_CLIENT_INTERFACE_NAME" (fun s v => v = s)
    c.client.interfaceName c'.client.interfaceName
  sessionFile : env.Governs "VEIL_CLIENT_SESSION_FILE" (fun s v => v = some s)
    c.client.sessionFile c'.client.sessionFile
  keepalive : env.Governs "VEIL_CLIENT_KEEPALIVE_SECS" (fun s n => Decimal.word16? s = some n)
    c.client.keepaliveSecs c'.client.keepaliveSecs
  tunnelNetwork : c'.client.tunnelNetwork = c.client.tunnelNetwork
  probeTimeout : c'.client.probeTimeoutSecs = c.client.probeTimeoutSecs
  tunnelProbeTimeout : c'.client.tunnelProbeTimeoutSecs = c.client.tunnelProbeTimeoutSecs
  handshakeGrace : c'.client.handshakeGraceSecs = c.client.handshakeGraceSecs

/-- Every setting but the role and the route mode is governed. -/
theorem governed_override (env : Environment) (c : Config) : Governed env c (c.override env) where
  logLevel := Environment.governs_text _
  serverInterface := Environment.governs_text _
  privateKey := Environment.governs_optional _
  listenPort := Environment.governs_read _ _
  serverAddress := Environment.governs_text _
  dataDir := Environment.governs_text _
  stopTimeout := Environment.governs_read _ _
  cidr := Environment.governs_text _
  gateway := Environment.governs_text _
  strategy := Environment.governs_name (fun _ _ => Strategy.lower_of_ofName?) _
  command := Environment.governs_text _
  argsSet s h := by
    have hargs : (c.override env).engine.args = commaParts s := by
      simp [override, overrideEngine, h]
    rw [hargs]
    exact itemsOf_commaParts s
  argsUnset h := by simp [override, overrideEngine, h]
  socketDir := Environment.governs_text _
  startupTimeout := rfl
  clientInterface := Environment.governs_text _
  sessionFile := Environment.governs_optional _
  keepalive := Environment.governs_read _ _
  tunnelNetwork := rfl
  probeTimeout := rfl
  tunnelProbeTimeout := rfl
  handshakeGrace := rfl

/-- A role that is not known stands for the client's. -/
theorem role_override (env : Environment) (c : Config) :
    (c.override env).role = env.namedOr "VEIL_ROLE" Role.ofName? .client c.role := by
  have hread (s : String) : (if s = "server" then Role.server else .client) =
      (Role.ofName? s).getD .client := by
    unfold Role.ofName?
    split <;> split <;> simp_all
  simp only [override, Environment.namedOr, hread]

/-- A route mode that is not known stands for the full one. -/
theorem routeMode_override (env : Environment) (c : Config) :
    (c.override env).client.routeMode =
      env.namedOr "VEIL_CLIENT_ROUTE_MODE" RouteMode.ofName? .full c.client.routeMode := by
  have hread (s : String) : (if s = "subnet" then RouteMode.subnet else .full) =
      (RouteMode.ofName? s).getD .full := by
    unfold RouteMode.ofName?
    split <;> split <;> simp_all
  simp only [override, overrideClient, Environment.namedOr, hread]

/-- **Overriding twice is overriding once.** -/
theorem override_override (env : Environment) (c : Config) :
    (c.override env).override env = c.override env := by
  have hget {α : Type} (found : Option α) (before : α) :
      found.getD (found.getD before) = found.getD before := by cases found <;> rfl
  have hor {α : Type} (found before : Option α) :
      (found <|> found <|> before) = (found <|> before) := by cases found <;> rfl
  simp only [override, overrideServer, overridePool, overrideEngine, overrideClient, hget, hor]

/-- **What overriding does to a configuration.** Each setting that has a variable takes what the
variable stands for and is kept where it stands for nothing, the engine's arguments are the items of
their variable whenever it is set, and settings without a variable are kept. This holds of the role
and of the route mode exactly as long as their variables are not misnamed, or the setting is the
client's role or the full mode anyway: that is what a misnamed variable makes of it. Overriding
once more changes nothing. -/
theorem variables_govern_unless_misnamed (env : Environment) (c : Config) :
    Governed env c (c.override env) ∧
    (env.Governs "VEIL_ROLE" (Names Role.ofName?) c.role (c.override env).role ↔
      (env.Misnamed "VEIL_ROLE" Role.ofName? → c.role = .client)) ∧
    (env.Governs "VEIL_CLIENT_ROUTE_MODE" (Names RouteMode.ofName?) c.client.routeMode
        (c.override env).client.routeMode ↔
      (env.Misnamed "VEIL_CLIENT_ROUTE_MODE" RouteMode.ofName? → c.client.routeMode = .full)) ∧
    (env.Misnamed "VEIL_ROLE" Role.ofName? → (c.override env).role = .client) ∧
    (env.Misnamed "VEIL_CLIENT_ROUTE_MODE" RouteMode.ofName? →
      (c.override env).client.routeMode = .full) ∧
    (c.override env).override env = c.override env := by
  rw [role_override, routeMode_override]
  exact ⟨governed_override env c,
    Environment.governs_namedOr_iff fun _ _ => Role.lower_of_ofName?,
    Environment.governs_namedOr_iff fun _ _ => RouteMode.lower_of_ofName?,
    Environment.namedOr_of_misnamed fun _ _ => Role.lower_of_ofName?,
    Environment.namedOr_of_misnamed fun _ _ => RouteMode.lower_of_ofName?,
    override_override env c⟩

/-- A role with a blank in front is no role, and makes a client of a server; a number with zeros, a
strategy in capitals and a list without items are as they should be. -/
theorem variables_govern_unless_misnamed_by_blank :
    let env : Environment := { bindings := [("VEIL_ROLE", " server"), ("VEIL_IPAM_STRATEGY", "LINEAR"),
      ("VEIL_SERVER_LISTEN_PORT", "+0080"), ("VEIL_ENGINE_ARGS", " , ")] }
    let c : Config := { role := .server }
    env.Misnamed "VEIL_ROLE" Role.ofName? ∧ (c.override env).role = .client ∧
      Governed env c (c.override env) ∧
      ItemsOf " , " (c.override env).engine.args ∧ (c.override env).engine.args = [] ∧
      (c.override env).server.listenPort = 80 ∧ (c.override env).pool.strategy = .linear := by
  intro env c
  have hmisnamed : env.Misnamed "VEIL_ROLE" Role.ofName? :=
    (Environment.misnamed_iff fun _ _ => Role.lower_of_ofName?).mpr
      ⟨" server", by decide +kernel, by decide +kernel⟩
  obtain ⟨hgoverned, -, -, hrole, -⟩ := variables_govern_unless_misnamed env c
  exact ⟨hmisnamed, hrole hmisnamed, hgoverned, hgoverned.argsSet " , " (by decide +kernel),
    by decide +kernel, by decide +kernel, by decide +kernel⟩

/-- A client that routes the tunnel's network alone routes everything when the variable of its route
mode is misspelt, and a server becomes a client. -/
theorem misspelt_names_override :
    let env : Environment :=
      { bindings := [("VEIL_ROLE", "sever"), ("VEIL_CLIENT_ROUTE_MODE", "subnets")] }
    let c : Config := { role := .server, client := { routeMode := .subnet } }
    (c.override env).role = .client ∧
      ¬env.Governs "VEIL_ROLE" (Names Role.ofName?) c.role (c.override env).role ∧
      (c.override env).client.routeMode = .full ∧
      ¬env.Governs "VEIL_CLIENT_ROUTE_MODE" (Names RouteMode.ofName?) c.client.routeMode
        (c.override env).client.routeMode := by
  intro env c
  have hrole : env.Misnamed "VEIL_ROLE" Role.ofName? :=
    (Environment.misnamed_iff fun _ _ => Role.lower_of_ofName?).mpr
      ⟨"sever", by decide +kernel, by decide +kernel⟩
  have hmode : env.Misnamed "VEIL_CLIENT_ROUTE_MODE" RouteMode.ofName? :=
    (Environment.misnamed_iff fun _ _ => RouteMode.lower_of_ofName?).mpr
      ⟨"subnets", by decide +kernel, by decide +kernel⟩
  refine ⟨by decide +kernel, ?_, by decide +kernel, ?_⟩
  · rw [role_override, Environment.governs_namedOr_iff fun _ _ => Role.lower_of_ofName?]
    exact fun h => absurd (h hrole) (by decide)
  · rw [routeMode_override, Environment.governs_namedOr_iff fun _ _ => RouteMode.lower_of_ofName?]
    exact fun h => absurd (h hmode) (by decide)

end Config

end OverlayVpn
