import Mathlib.Data.Finset.Insert
import OverlayVpn.Proofs.Control.Runs

set_option autoImplicit false

/-! # Who is a client, and with which address

What a control plane answers, dates aside, depends on little: whether it runs, which address each
client is registered with, and which addresses are handed out although no client is registered with
them. `Roster` is this little, and `Roster.answer` says what a call is answered and what it
leaves, as a program that can be run. With an engine that accepts every request a control plane is a
refinement of it, one call at a time (`answer_outcome`) and so over any list of calls
(`answers_serve`); of the file system it matters only whether the write that a call makes
succeeds. -/

namespace OverlayVpn

/-- A client's record without its date. -/
structure Member where
  publicKey : String
  address : String
  deriving DecidableEq

namespace Member

/-- The member that a record is about. -/
def ofRecord (record : RegisteredPeer) : Member := ⟨record.publicKey, record.allowedAddress⟩

/-- The number of the address that a member has, if its text names one. -/
def number (member : Member) : Option Nat := (Ipv4.ofEntry? member.address).map Ipv4.toNat

end Member

/-- What clients see of a server with these settings. -/
def TunnelSettings.contact (config : TunnelSettings) (publicKey : String) : ServerContact :=
  { publicKey
    endpoint := ":" ++ Text.Decimal.render config.listenPort.toNat
    serverAddress := config.serverCidr }

/-- The clients of a control plane and the addresses that are out. -/
structure Roster where
  pool : Pool
  /-- What clients see of the server while it runs. -/
  server : Option ServerContact := none
  members : KeyMap Member
  /-- The numbers that are handed out although no member has them. -/
  held : Finset Nat := ∅

/-- What a call is answered, dates aside. -/
inductive Answer where
  | failed (fault : ControlFault)
  | started
  | stopped
  | registered (address : String) (server : ServerContact)
  | inserted (allowed : String)
  | erased
  | clients (members : KeyMap Member)
  deriving DecidableEq

/-- The address that an answer gives a client. -/
def Answer.address? : Answer → Option String
  | .registered address _ | .inserted address => some address
  | _ => none

namespace Roster

/-! ## Answers -/

/-- The numbers that members have. -/
def named (members : KeyMap Member) : Finset Nat :=
  (members.values.filterMap Member.number).toFinset

/-- The lowest number of the pool's range that neither a member has nor is held. -/
def vacant (m : Roster) : Option Nat :=
  Allocator.firstFrom
    (fun n => n ≠ m.pool.gateway.toNat && n ∉ named m.members && n ∉ m.held)
    m.pool.first (m.pool.last + 1 - m.pool.first)

/-- The roster with a new member. -/
def enrolled (m : Roster) (key : String) (address : Ipv4) : Roster :=
  { m with
    members := m.members.insert key ⟨key, (Network.host address).text⟩
    held := m.held.erase address.toNat }

/-- Registers a client: a member keeps its address, another gets the lowest one that is vacant, and
holds it even if it cannot be written down. -/
def register (m : Roster) (written : Bool) (key : String) (server : ServerContact) :
    Answer × Roster :=
  match Key.check key with
  | .error fault => (.failed (.invalidKey fault), m)
  | .ok () =>
    match m.members.get? key, m.vacant with
    | some member, _ => (.registered member.address server, m)
    | none, none => (.failed (.poolExhausted (.exhausted m.pool.network)), m)
    | none, some n =>
      (.registered (Network.host (.ofNat n)).text server,
        if written then m.enrolled key (.ofNat n) else { m with held := insert n m.held })

/-- Adds a client with a given address, which a member must have already. -/
def insertClient (m : Roster) (written : Bool) (key address : String) : Answer × Roster :=
  match Key.check key with
  | .error fault => (.failed (.invalidKey fault), m)
  | .ok () =>
    match Ipv4.ofEntry? address with
    | none => (.failed (.invalidConfig (.clientAddress address)), m)
    | some host =>
      match m.members.get? key with
      | none => (.inserted (Network.host host).text, if written then m.enrolled key host else m)
      | some member =>
        if member.address = (Network.host host).text then (.inserted (Network.host host).text, m)
        else (.failed (.alreadyRegistered key member.address), m)

/-- Removes a client. -/
def eraseClient (m : Roster) (written : Bool) (key : String) : Answer × Roster :=
  match Key.check key with
  | .error fault => (.failed (.backend (.invalidKey .peerPublicKey fault)), m)
  | .ok () => (.erased, if written then { m with members := m.members.erase key } else m)

/-- Answers a call whose write, if it makes one, succeeds or does not. -/
def answer (m : Roster) (written : Bool) : Plane.Call → Answer × Roster
  | .start config =>
    match m.server, Plane.validate config with
    | some _, _ => (.failed .alreadyRunning, m)
    | none, .error reason => (.failed (.invalidConfig reason), m)
    | none, .ok publicKey => (.started, { m with server := some (config.contact publicKey) })
  | .stop _ => (.stopped, { m with server := none })
  | .register key =>
    match m.server with
    | none => (.failed .notRunning, m)
    | some server => m.register written key server
  | .insertClient key address =>
    if m.server.isSome then m.insertClient written key address else (.failed .notRunning, m)
  | .eraseClient key =>
    if m.server.isSome then m.eraseClient written key else (.failed .notRunning, m)
  | .clients => (if m.server.isSome then .clients m.members else .failed .notRunning, m)

/-- Answers calls one after another, each with what becomes of its write. -/
def answers (m : Roster) : List (Bool × Plane.Call) → List Answer × Roster
  | [] => ([], m)
  | (written, call) :: calls =>
    let (answer, m) := m.answer written call
    let (rest, m) := m.answers calls
    (answer :: rest, m)

section

variable {m : Roster} {server : ServerContact}

/-- Only a start and a stop mean something to a server that does not run. -/
theorem answer_of_stopped (h : m.server = none) (written : Bool) {call : Plane.Call}
    (hstart : ∀ config, call ≠ .start config) (hstop : ∀ deadline, call ≠ .stop deadline) :
    m.answer written call = (.failed .notRunning, m) := by
  cases call with
  | start config => exact absurd rfl (hstart config)
  | stop deadline => exact absurd rfl (hstop deadline)
  | register | insertClient | eraseClient | clients =>
      simp only [answer, h, Option.isSome_none, Bool.false_eq_true, if_false]

theorem answer_register (h : m.server = some server) (written : Bool) (key : String) :
    m.answer written (.register key) = m.register written key server := by
  simp only [answer, h]

theorem answer_insertClient (h : m.server = some server) (written : Bool) (key address : String) :
    m.answer written (.insertClient key address) = m.insertClient written key address := by
  simp only [answer, h, Option.isSome_some, if_true]

theorem answer_eraseClient (h : m.server = some server) (written : Bool) (key : String) :
    m.answer written (.eraseClient key) = m.eraseClient written key := by
  simp only [answer, h, Option.isSome_some, if_true]

end

/-! ## Numbers -/

theorem mem_named {members : KeyMap Member} {n : Nat} :
    n ∈ named members ↔ ∃ key member, members.get? key = some member ∧ member.number = some n := by
  simp only [named, List.mem_toFinset, List.mem_filterMap, KeyMap.mem_values_iff]
  constructor
  · rintro ⟨member, ⟨key, hkey⟩, hn⟩
    exact ⟨key, member, hkey, hn⟩
  · rintro ⟨key, member, hkey, hn⟩
    exact ⟨member, ⟨key, hkey⟩, hn⟩

theorem mem_named_insert {members : KeyMap Member} {key : String} (hnew : members.get? key = none)
    (member : Member) (n : Nat) :
    n ∈ named (members.insert key member) ↔ member.number = some n ∨ n ∈ named members := by
  simp only [mem_named, KeyMap.get?_insert]
  constructor
  · rintro ⟨k, found, hfound, hn⟩
    split at hfound
    · obtain rfl := Option.some.inj hfound
      exact Or.inl hn
    · exact Or.inr ⟨k, found, hfound, hn⟩
  · rintro (hn | ⟨k, found, hfound, hn⟩)
    · exact ⟨key, member, if_pos rfl, hn⟩
    · have hne : k ≠ key := by
        rintro rfl
        rw [hnew] at hfound
        cases hfound
      exact ⟨k, found, by rw [if_neg hne, hfound], hn⟩

/-- Without a member, the others have what they had. -/
theorem mem_named_erase {members : KeyMap Member} {key : String} {member : Member} {n : Nat}
    (hmember : members.get? key = some member) (hn : member.number ≠ some n) :
    n ∈ named (members.erase key) ↔ n ∈ named members := by
  simp only [mem_named, KeyMap.get?_erase]
  constructor
  · rintro ⟨k, found, hfound, hnumber⟩
    split at hfound
    · cases hfound
    · exact ⟨k, found, hfound, hnumber⟩
  · rintro ⟨k, found, hfound, hnumber⟩
    have hne : k ≠ key := by
      rintro rfl
      obtain rfl := Option.some.inj (hmember.symm.trans hfound)
      exact hn hnumber
    exact ⟨k, found, by rw [if_neg hne, hfound], hnumber⟩

theorem number_host (key : String) (address : Ipv4) :
    (Member.mk key (Network.host address).text).number = some address.toNat := by
  rw [Member.number, Network.ofEntry?_host, Option.map_some]

/-- A new member takes its number from those that nobody has. -/
theorem sdiff_named_insert (out : Finset Nat) {members : KeyMap Member} {key : String}
    (hnew : members.get? key = none) (address : Ipv4) :
    out \ named (members.insert key ⟨key, (Network.host address).text⟩) =
      (out \ named members).erase address.toNat := by
  ext n
  simp only [Finset.mem_sdiff, Finset.mem_erase, mem_named_insert hnew, number_host,
    Option.some.injEq, not_or]
  have hne : address.toNat = n ↔ n = address.toNat := eq_comm
  tauto

/-- A member that goes and gives its number back leaves those that nobody has. -/
theorem sdiff_named_erase {out out' : Finset Nat} {members : KeyMap Member} {key : String}
    {member : Member} (hmember : members.get? key = some member)
    (hout : ∀ n, n ∈ out' ↔ n ∈ out ∧ member.number ≠ some n) :
    out' \ named (members.erase key) = out \ named members := by
  ext n
  rw [Finset.mem_sdiff, Finset.mem_sdiff, hout]
  by_cases hn : member.number = some n
  · have hnamed : n ∈ named members := mem_named.mpr ⟨key, member, hmember, hn⟩
    simp [hn, hnamed]
  · rw [mem_named_erase hmember hn]
    simp [hn]

/-- A number that is given back although its member stays was not one that nobody has. -/
theorem sdiff_named_of_member {out out' : Finset Nat} {members : KeyMap Member} {key : String}
    {member : Member} (hmember : members.get? key = some member)
    (hout : ∀ n, n ∈ out' ↔ n ∈ out ∧ member.number ≠ some n) :
    out' \ named members = out \ named members := by
  ext n
  rw [Finset.mem_sdiff, Finset.mem_sdiff, hout]
  by_cases hn : member.number = some n
  · have hnamed : n ∈ named members := mem_named.mpr ⟨key, member, hmember, hn⟩
    simp [hnamed]
  · simp [hn]

theorem vacant_eq_some {m : Roster} {n : Nat} (h : m.vacant = some n) :
    m.pool.assignableNumber n = true ∧ n ∉ named m.members ∧ n ∉ m.held := by
  obtain ⟨hfirst, hlast, hfree, -⟩ := Allocator.firstFrom_eq_some_iff.mp h
  simp only [Bool.and_eq_true, decide_eq_true_eq] at hfree
  refine ⟨Pool.assignableNumber_iff.mpr ⟨hfirst, by omega, hfree.1.1⟩, hfree.1.2, hfree.2⟩

end Roster

open Roster

/-- A reply without its dates. -/
def Plane.Reply.undated : Plane.Reply → Answer
  | .failed fault => .failed fault
  | .started => .started
  | .stopped => .stopped
  | .registered r => .registered r.assignedAddress r.server
  | .inserted allowed => .inserted allowed
  | .erased => .erased
  | .clients peers => .clients (peers.map Member.ofRecord)

namespace Plane

variable {β : Type}

/-! ## The roster of a control plane -/

/-- The clients of a control plane and the addresses that are out. -/
def roster (p : Plane β) : Roster where
  pool := p.allocator.pool
  server := p.running.map (·.contact)
  members := p.registry.peers.map Member.ofRecord
  held := p.allocator.reserved.toFinset \ named (p.registry.peers.map Member.ofRecord)

section

variable {p : Plane β} {key : String}

@[simp] theorem isSome_server (p : Plane β) : p.roster.server.isSome = p.running.isSome := by
  rw [roster, Option.isSome_map]

theorem get?_members (p : Plane β) (key : String) :
    p.roster.members.get? key = (p.registry.peers.get? key).map Member.ofRecord :=
  KeyMap.get?_map _ _ _

@[simp] theorem roster_registeredAt (p : Plane β) (key : String) :
    (p.registeredAt key).2.roster = p.roster := by
  simp only [roster, allocator_registeredAt, running_registeredAt, registry_registeredAt]

/-- The numbers that the entries of a registry name. -/
theorem mem_named_addresses {p : Plane β} {n : Nat} :
    n ∈ named p.roster.members ↔
      ∃ entry ∈ p.registry.addresses, ∃ address, Ipv4.ofEntry? entry = some address ∧
        address.toNat = n := by
  simp only [mem_named, get?_members, Option.map_eq_some_iff, Registry.addresses, List.mem_map,
    KeyMap.mem_values_iff, Member.number]
  constructor
  · rintro ⟨key, member, ⟨record, hrecord, rfl⟩, address, haddress, hn⟩
    exact ⟨_, ⟨record, ⟨key, hrecord⟩, rfl⟩, address, haddress, hn⟩
  · rintro ⟨-, ⟨record, ⟨key, hrecord⟩, rfl⟩, address, haddress, hn⟩
    exact ⟨key, _, ⟨record, hrecord, rfl⟩, address, haddress, hn⟩

/-- The search of the allocator is that of the roster. -/
theorem lowestFree_eq_vacant (p : Plane β) :
    Allocator.lowestFree p.allocator.pool (p.allocator.taken p.registry.addresses)
      p.allocator.pool.first = p.roster.vacant := by
  apply Allocator.firstFrom_congr
  intro n hfirst hlast
  by_cases hgateway : n = p.allocator.pool.gateway.toNat
  · simp [hgateway, roster]
  · -- of the numbers of the range those are taken that are reserved or named
    have hassign : p.allocator.pool.assignableNumber n = true :=
      Pool.assignableNumber_iff.mpr ⟨hfirst, by omega, hgateway⟩
    have hheld : n ∈ p.roster.held ↔ n ∈ p.allocator.reserved ∧ n ∉ named p.roster.members := by
      simp only [roster, Finset.mem_sdiff, List.mem_toFinset]
    have htaken : n ∈ p.allocator.taken p.registry.addresses ↔
        n ∈ named p.roster.members ∨ n ∈ p.roster.held := by
      rw [Allocator.mem_taken, hheld]
      simp only [hassign, and_true, ← mem_named_addresses]
      tauto
    rw [Bool.eq_iff_iff]
    simp only [Bool.and_eq_true, decide_eq_true_eq, List.contains_eq_mem, htaken,
      Bool.not_eq_true', decide_eq_false_iff_not, not_or, and_assoc]
    rfl

/-- **A control plane hands out the number that is vacant**, and holds it from then on. -/
theorem lease_of_vacant (h : p.allocator.Sound) :
    (∃ n, p.roster.vacant = some n ∧ p.lease.1 = .ok (.host (.ofNat n)) ∧
      (Ipv4.ofNat n).toNat = n ∧
      p.lease.2.roster = { p.roster with held := insert n p.roster.held }) ∨
    (p.roster.vacant = none ∧ p.lease.1 = .error (.exhausted p.roster.pool.network) ∧
      p.lease.2.roster = p.roster) := by
  have hlease : p.lease = ((p.allocator.allocate p.registry.addresses p.host.clock.read.1).1,
      { p with
        allocator := (p.allocator.allocate p.registry.addresses p.host.clock.read.1).2
        host := { p.host with clock := p.host.clock.read.2 } }) := rfl
  rw [hlease, Allocator.allocate_eq h, lowestFree_eq_vacant]
  cases hvacant : p.roster.vacant with
  | none => exact Or.inr ⟨rfl, rfl, rfl⟩
  | some n =>
      obtain ⟨hassign, hnamed, -⟩ := vacant_eq_some hvacant
      refine Or.inl ⟨n, rfl, rfl, Allocator.toNat_ofNat_of_assignable h hassign, ?_⟩
      simp only [roster, Allocator.grant, Roster.mk.injEq, true_and]
      ext m
      simp only [Finset.mem_sdiff, List.mem_toFinset, List.mem_insert_iff, Finset.mem_insert]
      constructor
      · rintro ⟨rfl | hm, hmnamed⟩
        · exact Or.inl rfl
        · exact Or.inr ⟨hm, hmnamed⟩
      · rintro (rfl | ⟨hm, hmnamed⟩)
        · exact ⟨Or.inl rfl, hnamed⟩
        · exact ⟨Or.inr hm, hmnamed⟩

/-! ## What writes and releases leave -/

/-- Whether the registry's file could be replaced by one that holds these peers. -/
def replaceable (p : Plane β) (peers : KeyMap RegisteredPeer) : Bool :=
  (p.registry.commit p.host.disk peers).1.isOk

theorem replaceable_of_replace {peers : KeyMap RegisteredPeer} {result : Except OsError Unit}
    {disk' : Disk} (h : p.host.disk.replace p.registry.path (Registry.contents peers) = (result, disk')) :
    p.replaceable peers = result.isOk := by
  simp only [replaceable, Registry.commit, h]
  cases result <;> rfl

/-- A new client is on the roster once it is written down, and then nobody holds its address. -/
theorem roster_recorded {host : Ipv4} (hnew : p.registry.peers.get? key = none) :
    (p.recorded key (Network.host host).text).roster =
      if p.replaceable
          (p.registry.peers.insert key ⟨key, (Network.host host).text, p.host.clock.read.1⟩) then
        p.roster.enrolled key host
      else p.roster := by
  rcases Registry.add_cases p.registry p.host key (Network.host host).text with ⟨record, hfound, -⟩ |
    ⟨record, hfound, -⟩ | ⟨-, record, rfl, ⟨disk', hreplace, heq⟩ | ⟨error, disk', hreplace, heq⟩⟩
  · rw [hnew] at hfound
    cases hfound
  · rw [hnew] at hfound
    cases hfound
  · have hmember : (p.registry.peers.map Member.ofRecord).get? key = none := by
      rw [KeyMap.get?_map, hnew, Option.map_none]
    have hheld := sdiff_named_insert p.allocator.reserved.toFinset hmember host
    rw [replaceable_of_replace hreplace]
    simp only [recorded, Plane.record, Task.run_atomic, heq, roster, KeyMap.map_insert,
      Member.ofRecord, hheld]
    rfl
  · rw [replaceable_of_replace hreplace]
    simp only [recorded, Plane.record, Task.run_atomic, heq]
    rfl

/-- A client that is written down with the address already is left as it is. -/
theorem recorded_of_known {address : String} {found : RegisteredPeer}
    (hfound : p.registry.peers.get? key = some found) (haddress : found.allowedAddress = address) :
    p.recorded key address = p := by
  simp only [recorded, Plane.record, Task.run_atomic, Registry.add, hfound, haddress, if_true]

theorem mem_reserved_released (h : p.allocator.Sound) (address : Option Ipv4) (n : Nat) :
    n ∈ (p.released address).allocator.reserved ↔
      n ∈ p.allocator.reserved ∧ address.map Ipv4.toNat ≠ some n := by
  cases address with
  | none => simp [released]
  | some address =>
      rw [allocator_released, Allocator.mem_reserved_release h]
      simp only [Option.map_some, ne_eq, Option.some.injEq]
      rw [eq_comm]

theorem pool_released (p : Plane β) (address : Option Ipv4) :
    (p.released address).allocator.pool = p.allocator.pool := by
  cases address with
  | none => rfl
  | some address => exact Allocator.pool_release _ _

/-- **A client that is struck out leaves the roster**, and nobody else's address is let go. -/
theorem roster_erased (h : p.allocator.Sound) :
    ((p.struck key).released
        ((p.registry.peers.get? key).bind fun r => Ipv4.ofEntry? r.allowedAddress)).roster =
      if (p.registry.peers.get? key).all fun _ => p.replaceable (p.registry.peers.erase key) then
        { p.roster with members := p.roster.members.erase key }
      else p.roster := by
  rcases Registry.remove_cases p.registry p.host key with ⟨hnone, heq⟩ | ⟨record, hfound, hcases⟩
  · have hmember : p.roster.members.get? key = none := by rw [get?_members, hnone, Option.map_none]
    simp only [hnone, Option.bind_none, Option.all_none, if_true,
      KeyMap.erase_of_get?_eq_none hmember, released, struck, strike, Task.run_atomic, heq]
  · have hmember : (p.registry.peers.map Member.ofRecord).get? key = some (.ofRecord record) := by
      rw [KeyMap.get?_map, hfound, Option.map_some]
    have hreserved : ∀ n, n ∈ ((p.struck key).released
        (Ipv4.ofEntry? record.allowedAddress)).allocator.reserved.toFinset ↔
          n ∈ p.allocator.reserved.toFinset ∧ (Member.ofRecord record).number ≠ some n := by
      intro n
      rw [List.mem_toFinset, List.mem_toFinset]
      exact mem_reserved_released (p := p.struck key) h _ n
    rw [hfound, Option.bind_some, Option.all_some]
    rcases hcases with ⟨disk', hreplace, heq⟩ | ⟨error, disk', hreplace, heq⟩
    · have hregistry : (p.struck key).registry =
          { p.registry with peers := p.registry.peers.erase key } := by
        simp only [struck, strike, Task.run_atomic, heq]
      rw [replaceable_of_replace hreplace]
      simp only [roster, pool_released, running_released, registry_released, hregistry, KeyMap.map_erase,
        sdiff_named_erase hmember hreserved]
      rfl
    · have hregistry : (p.struck key).registry = p.registry := by
        simp only [struck, strike, Task.run_atomic, heq]
      rw [replaceable_of_replace hreplace]
      simp only [roster, pool_released, running_released, registry_released, hregistry,
        sdiff_named_of_member hmember hreserved]
      rfl

end

/-! ## One call -/

variable {ω δ : Type}

/-- A control plane in working order whose backend has a device only while it runs. -/
structure Steady (p : Plane (EngineTunnel δ × ω)) : Prop where
  orderly : Orderly p
  down : p.running = none → p.backend.1.device = none

variable {e : Engine ω δ} {p q : Plane (EngineTunnel δ × ω)} {call : Call} {reply : Reply}

theorem steady_outcome (h : Steady p) (houtcome : Outcome (EngineTunnel.backend e) p call reply q) :
    Steady q := by
  refine ⟨orderly_outcome h.orderly houtcome, fun hq => ?_⟩
  rcases tunnel_outcome houtcome with ⟨hsame, peers, htunnel⟩ | ⟨-, -, run, hrunning, -⟩ |
    ⟨-, hdevice⟩
  · rw [hsame] at hq
    rw [htunnel]
    exact h.down hq
  · rw [hq] at hrunning
    cases hrunning
  · exact hdevice

theorem steady_openAt {host : Host} {path : Path} {config : PoolConfig} {w : ω}
    (hopen : openAt host path config (({}, w) : EngineTunnel δ × ω) = .ok p) : Steady p := by
  have horderly := orderly_openAt hopen
  obtain ⟨registry, disk, pool, -, -, rfl⟩ := openAt_eq_ok hopen
  exact ⟨horderly, fun _ => rfl⟩

theorem server_eq_none {p : Plane β} (h : p.running = none) : p.roster.server = none := by
  rw [roster, h, Option.map_none]

theorem server_eq_some {p : Plane β} {running : ServerRun} (h : p.running = some running) :
    p.roster.server = some running.contact := by
  rw [roster, h, Option.map_some]

theorem exists_key_of_valid {config : TunnelSettings} (h : (validate config).isOk = true) :
    ∃ key, Key.read config.privateKey = .ok key := by
  cases hkey : Key.read config.privateKey with
  | ok key => exact ⟨key, rfl⟩
  | error fault =>
      simp only [validate, hkey] at h
      split_ifs at h <;> cases h

section

variable {p : Plane β} {fault : ControlFault} {running : ServerRun}

/-- A start is refused while the plane runs, and with a configuration that makes no sense. -/
theorem answer_start_of_refusal {config : TunnelSettings} (written : Bool)
    (h : p.refusal (.start config) = some fault) :
    p.roster.answer written (.start config) = (.failed fault, p.roster) := by
  cases hrunning : p.running with
  | none =>
      simp only [refusal, hrunning, Option.isSome_none, Bool.false_eq_true, if_false] at h
      simp only [answer, server_eq_none hrunning]
      cases hvalid : validate config with
      | error reason =>
          rw [hvalid] at h
          obtain rfl := Option.some.inj h
          rfl
      | ok publicKey =>
          rw [hvalid] at h
          cases h
  | some running =>
      simp only [refusal, hrunning, Option.isSome_some, if_true] at h
      obtain rfl := Option.some.inj h
      simp only [answer, server_eq_some hrunning]

/-- A plane that runs registers no client under a text that is no key. -/
theorem answer_register_of_refusal {key : String} (hrunning : p.running = some running)
    (written : Bool) (h : p.refusal (.register key) = some fault) :
    p.roster.answer written (.register key) = (.failed fault, p.roster) := by
  simp only [refusal, hrunning, Option.isNone_some, Bool.false_eq_true, if_false] at h
  rw [answer_register (server_eq_some hrunning), Roster.register]
  cases hkey : Key.check key with
  | error fault' =>
      rw [hkey] at h
      obtain rfl := Option.some.inj h
      rfl
  | ok u =>
      rw [hkey] at h
      cases h

/-- A plane that runs adds no client without a key and an address, nor one that it knows with
another address. -/
theorem answer_insertClient_of_refusal {key address : String} (hrunning : p.running = some running)
    (written : Bool) (h : p.refusal (.insertClient key address) = some fault) :
    p.roster.answer written (.insertClient key address) = (.failed fault, p.roster) := by
  simp only [refusal, hrunning, Option.isNone_some, Bool.false_eq_true, if_false] at h
  rw [answer_insertClient (server_eq_some hrunning), Roster.insertClient]
  cases hkey : Key.check key with
  | error fault' =>
      rw [hkey] at h
      obtain rfl := Option.some.inj h
      rfl
  | ok u =>
      rw [hkey] at h
      cases hhost : Ipv4.ofEntry? address with
      | none =>
          rw [hhost] at h
          obtain rfl := Option.some.inj h
          rfl
      | some host =>
          rw [hhost] at h
          obtain ⟨existing, hexisting, rfl⟩ := Option.map_eq_some_iff.mp h
          obtain ⟨hfound, hother⟩ := Option.filter_eq_some_iff.mp hexisting
          have hne : existing.allowedAddress ≠ (Network.host host).text := by
            simpa using hother
          simp only [get?_members, hfound, Option.map_some, Member.ofRecord, hne, if_false]

/-- A call that is refused is refused by the roster. -/
theorem answer_of_refusal {call : Call} (written : Bool) (h : p.refusal call = some fault) :
    p.roster.answer written call = (.failed fault, p.roster) := by
  -- a plane that does not run refuses all but a start and a stop
  match call, hrunning : p.running with
  | .start config, _ => exact answer_start_of_refusal written h
  | .stop deadline, _ => cases h
  | .register key, some running => exact answer_register_of_refusal hrunning written h
  | .insertClient key address, some running =>
      exact answer_insertClient_of_refusal hrunning written h
  | .eraseClient key, some running | .clients, some running =>
      simp only [refusal, hrunning, Option.isNone_some, Bool.false_eq_true, if_false] at h
      cases h
  | .register key, none | .insertClient key address, none | .eraseClient key, none
  | .clients, none =>
      simp only [refusal, hrunning, Option.isNone_none, if_true] at h
      obtain rfl := Option.some.inj h
      exact answer_of_stopped (server_eq_none hrunning) written (by simp) (by simp)

end

/-! Of the calls that are not refused, each has a lemma for how it ends. -/

section

variable {key : String} {running : ServerRun}

/-- While a plane runs, its backend takes any peer that has a key. -/
theorem allowPeer_of_steady (he : e.Accepts) (h : Steady p) (hrunning : p.running.isSome = true)
    (hkey : Key.check key = .ok ()) (allowed : List String) :
    ((EngineTunnel.backend e).allowPeer key allowed p.backend).1 = .ok () := by
  obtain ⟨hup, hsome⟩ := h.orderly.up hrunning
  obtain ⟨device, hdevice⟩ := Option.isSome_iff_exists.mp hsome
  exact EngineTunnel.allowPeer_of_accepts he hup hdevice hkey allowed

/-- While a plane runs, its backend drops any peer that has a key. -/
theorem erasePeer_of_steady (he : e.Accepts) (h : Steady p) (hrunning : p.running.isSome = true)
    (key : String) :
    ((EngineTunnel.backend e).erasePeer key p.backend).1 =
      (Key.check key).mapError (.invalidKey .peerPublicKey) := by
  obtain ⟨hup, hsome⟩ := h.orderly.up hrunning
  obtain ⟨device, hdevice⟩ := Option.isSome_iff_exists.mp hsome
  exact EngineTunnel.erasePeer_of_accepts he hup hdevice key

/-- A client that is known keeps its address. -/
theorem answer_known {p : Plane β} {record : RegisteredPeer} (hrunning : p.running = some running)
    (hkey : Key.check key = .ok ()) (hrecord : p.registry.peers.get? key = some record)
    (written : Bool) :
    p.roster.answer written (.register key) =
      (.registered record.allowedAddress running.contact, p.roster) := by
  simp only [answer_register (server_eq_some hrunning), Roster.register, hkey, get?_members, hrecord,
    Option.map_some]
  rfl

/-- A new client has no address when the allocator has none. -/
theorem answer_exhausted {p : Plane β} {fault : Pool.Fault} (hsound : p.allocator.Sound)
    (hrunning : p.running = some running) (hkey : Key.check key = .ok ())
    (hrecord : p.registry.peers.get? key = none) (hlease : p.lease.1 = .error fault)
    (written : Bool) :
    p.roster.answer written (.register key) =
      (.failed (.poolExhausted fault), p.lease.2.roster) := by
  rcases lease_of_vacant hsound with ⟨n, -, hleased, -⟩ | ⟨hvacant, hleased, hroster⟩
  · cases hlease.symm.trans hleased
  · obtain rfl := Except.error.inj (hlease.symm.trans hleased)
    simp only [answer_register (server_eq_some hrunning), Roster.register, hkey, get?_members,
      hrecord, Option.map_none, hvacant, hroster]

/-- A new client has the address that the allocator hands out. If it cannot be written down, nobody
else has the address either. -/
theorem answer_registered {p : Plane β} {address : Ipv4} {backend : β} {written : Bool}
    (hsound : p.allocator.Sound) (hrunning : p.running = some running)
    (hkey : Key.check key = .ok ()) (hrecord : p.registry.peers.get? key = none)
    (hlease : p.lease.1 = .ok (.host address))
    (hwritten : written = (p.writes (.register key)).all p.replaceable) :
    p.roster.answer written (.register key) =
      (.registered (Network.host address).text running.contact,
        ({ p.lease.2 with backend }.recorded key (Network.host address).text).roster) := by
  rcases lease_of_vacant hsound with ⟨n, hvacant, hleased, hn, hroster⟩ | ⟨-, hleased, -⟩
  · have haddress : address = .ofNat n := by
      simpa [Network.host] using hlease.symm.trans hleased
    rw [writes_register hrecord hlease, Option.all_some] at hwritten
    have hnew : { p.lease.2 with backend }.registry.peers.get? key = none := hrecord
    -- the backend, which has been told of the client, is no part of a roster
    have hleft : { p.lease.2 with backend }.roster =
        { p.roster with held := insert n p.roster.held } := hroster
    -- a number that is held until its member is written down is as good as never held
    have henrolled : { p.roster with held := insert n p.roster.held }.enrolled key address =
        p.roster.enrolled key address := by
      have hnumber : address.toNat = n := by rw [haddress, hn]
      simp only [enrolled, hnumber, Finset.erase_insert_eq_erase]
    have hroster' : ({ p.lease.2 with backend }.recorded key (Network.host address).text).roster =
        if written then p.roster.enrolled key address
        else { p.roster with held := insert n p.roster.held } := by
      rw [roster_recorded hnew, hleft, henrolled, hwritten]
      rfl
    rw [hroster', haddress]
    simp only [answer_register (server_eq_some hrunning), Roster.register, hkey, get?_members,
      hrecord, Option.map_none, hvacant]
  · cases hlease.symm.trans hleased

/-- A client that is added has the address that was given for it. -/
theorem answer_inserted {p : Plane β} {address : String} {host : Ipv4} {backend : β}
    {written : Bool} (hrunning : p.running = some running) (hkey : Key.check key = .ok ())
    (hhost : Ipv4.ofEntry? address = some host)
    (hrecord : ∀ record, p.registry.peers.get? key = some record →
      record.allowedAddress = (Network.host host).text)
    (hwritten : written = (p.writes (.insertClient key address)).all p.replaceable) :
    p.roster.answer written (.insertClient key address) =
      (.inserted (Network.host host).text,
        ({ p with backend }.recorded key (Network.host host).text).roster) := by
  simp only [answer_insertClient (server_eq_some hrunning), Roster.insertClient, hkey, hhost,
    get?_members]
  cases hfound : p.registry.peers.get? key with
  | none =>
      rw [writes_insertClient hfound hhost, Option.all_some] at hwritten
      have hnew : { p with backend }.registry.peers.get? key = none := hfound
      rw [Option.map_none, roster_recorded hnew, hwritten]
      rfl
  | some record =>
      have haddress := hrecord record hfound
      have hsame := recorded_of_known (p := { p with backend }) hfound haddress
      simp only [Option.map_some, Member.ofRecord, haddress, if_true, hsame]
      rfl

/-- A client is not removed under a text that is no key. -/
theorem answer_eraseFailed {p : Plane β} {fault : Key.Fault} (hrunning : p.running = some running)
    (hkey : Key.check key = .error fault) (written : Bool) :
    p.roster.answer written (.eraseClient key) =
      (.failed (.backend (.invalidKey .peerPublicKey fault)), p.roster) := by
  simp only [answer_eraseClient (server_eq_some hrunning), Roster.eraseClient, hkey]

/-- A client that is removed is no member any more, and has given its address back. -/
theorem answer_erased {p : Plane β} {backend : β} {written : Bool} (hsound : p.allocator.Sound)
    (hrunning : p.running = some running) (hkey : Key.check key = .ok ())
    (hwritten : written = (p.writes (.eraseClient key)).all p.replaceable) :
    p.roster.answer written (.eraseClient key) =
      (.erased, (({ p with backend }.struck key).released
        ((p.registry.peers.get? key).bind fun r => Ipv4.ofEntry? r.allowedAddress)).roster) := by
  have hsound' : { p with backend }.allocator.Sound := hsound
  have herased := @roster_erased _ _ key hsound'
  simp only [writes, Option.all_map] at hwritten
  simp only [answer_eraseClient (server_eq_some hrunning), Roster.eraseClient, hkey, hwritten]
  rw [herased]
  rfl

end

/-- **A call is answered from the roster**, if the engine accepts every request. -/
theorem answer_outcome (he : e.Accepts) (h : Steady p)
    (houtcome : Outcome (EngineTunnel.backend e) p call reply q) {written : Bool}
    (hwritten : reply.isFailed = false → written = (p.writes call).all p.replaceable) :
    p.roster.answer written call = (reply.undated, q.roster) := by
  have hsound := h.orderly.sound
  cases houtcome with
  | refused hrefusal => exact answer_of_refusal written hrefusal
  | startFailed hstopped hstart hvalid =>
      -- a configuration that makes sense has a private key
      obtain ⟨key, hkey⟩ := exists_key_of_valid hvalid
      have hstarts := EngineTunnel.start_of_accepts he (h.down hstopped) hkey
      rw [hstart] at hstarts
      cases hstarts
  | started hstopped hvalid hstart =>
      simp only [answer, server_eq_none hstopped, hvalid]
      rfl
  | idle hstopped =>
      have hserver := server_eq_none hstopped
      simp only [answer, Reply.undated, ← hserver]
  | stopped hrunning hstop => rfl
  | aborted hrunning hstop => rfl
  | known hrunning hrecord htold hkey => exact answer_known hrunning hkey hrecord written
  | exhausted hrunning hrecord hlease hkey =>
      obtain ⟨running, hrunning⟩ := Option.isSome_iff_exists.mp hrunning
      exact answer_exhausted hsound hrunning hkey hrecord hlease written
  | registered hrunning hrecord hlease htold hq hkey =>
      rw [roster_registeredAt, hq]
      exact answer_registered hsound hrunning hkey hrecord hlease (hwritten rfl)
  | inserted hrunning hhost hrecord htold hkey =>
      obtain ⟨running, hrunning⟩ := Option.isSome_iff_exists.mp hrunning
      exact answer_inserted hrunning hkey hhost hrecord (hwritten rfl)
  | knownFailed hrunning hrecord htold hkey
  | registerFailed hrunning hrecord hlease htold hkey
  | insertFailed hrunning hhost hrecord htold hkey =>
      -- the backend takes every peer
      have htells := allowPeer_of_steady he h hrunning hkey
      cases (htells _).symm.trans (congrArg Prod.fst htold)
  | @eraseFailed key fault backend hrunning hdropped =>
      have hdrops := erasePeer_of_steady he h hrunning key
      rw [hdropped] at hdrops
      obtain ⟨running, hrunning⟩ := Option.isSome_iff_exists.mp hrunning
      cases hkey : Key.check key with
      | ok u => cases hdrops.trans (congrArg _ hkey)
      | error fault' =>
          obtain rfl := Except.error.inj (hdrops.trans (congrArg _ hkey))
          exact answer_eraseFailed hrunning hkey written
  | @erased key backend hrunning hdropped =>
      have hdrops := erasePeer_of_steady he h hrunning key
      rw [hdropped] at hdrops
      obtain ⟨running, hrunning⟩ := Option.isSome_iff_exists.mp hrunning
      cases hkey : Key.check key with
      | ok u => exact answer_erased hsound hrunning hkey (hwritten rfl)
      | error fault => cases hdrops.trans (congrArg _ hkey)
  | clients hrunning =>
      simp only [answer, isSome_server, hrunning, if_true]
      rfl

/-! ## Lists of calls -/

/-- Calls together with what becomes of their writes. -/
def traced (b : Backend β) (p : Plane β) : List Call → List (Bool × Call)
  | [] => []
  | call :: calls => (p.writeSucceeds b call, call) :: (p.perform b call).2.traced b calls

theorem traced_of_writesSucceed {b : Backend β} {p : Plane β} {calls : List Call}
    (h : p.writesSucceed b calls = true) : p.traced b calls = calls.map (true, ·) := by
  induction calls generalizing p with
  | nil => rfl
  | cons call calls ih =>
      simp only [writesSucceed, Bool.and_eq_true] at h
      rw [traced, h.1, ih h.2, List.map_cons]

theorem steady_serve (h : Steady p) (calls : List Call) :
    Steady (p.serve (EngineTunnel.backend e) calls).2 := by
  induction calls generalizing p with
  | nil => exact h
  | cons call calls ih => exact ih (steady_outcome h (outcome_perform _ p call))

theorem answer_perform (he : e.Accepts) (h : Steady p) (call : Call) :
    p.roster.answer (p.writeSucceeds (EngineTunnel.backend e) call) call =
      ((p.perform (EngineTunnel.backend e) call).1.undated,
        (p.perform (EngineTunnel.backend e) call).2.roster) := by
  apply answer_outcome he h (outcome_perform _ p call)
  intro hdone
  rw [writeSucceeds, hdone, Bool.false_or]
  rfl

/-- **Calls are answered from the roster**, if the engine accepts every request. -/
theorem answers_serve (he : e.Accepts) (h : Steady p) (calls : List Call) :
    p.roster.answers (p.traced (EngineTunnel.backend e) calls) =
      ((p.serve (EngineTunnel.backend e) calls).1.map Reply.undated,
        (p.serve (EngineTunnel.backend e) calls).2.roster) := by
  induction calls generalizing p with
  | nil => rfl
  | cons call calls ih =>
      have hrest := ih (steady_outcome h (outcome_perform (EngineTunnel.backend e) p call))
      simp only [traced, answers, serve, answer_perform he h, hrest, List.map_cons]

end Plane

end OverlayVpn
