import OverlayVpn.Proofs.Control.Restart

set_option autoImplicit false

/-! # Clients that could not be written down

A client that cannot be written down is added all the same. Nobody notices as long as later calls
leave it alone: the allocator holds the address that it handed out, so that the others are answered
as if the client had been written down (`Lacks.answers`). A call that names the client does
notice, because its record is all that tells its address: it is given a second address when it
registers again (`ne_of_lost`), and its first one is not handed out again when it is removed. -/

namespace OverlayVpn

open Roster

/-- A client that was added without its being written down. -/
structure LostClient where
  key : String
  address : Ipv4
  deriving DecidableEq

namespace Roster

/-- Whether a call that adds a client with this key gets past the checks, and the client is new. -/
def isNew (m : Roster) (key : String) : Bool :=
  m.server.isSome && (Key.check key).isOk && ! m.members.contains key

/-- The client that a call adds without its being written down. -/
def lost? (m : Roster) (written : Bool) : Plane.Call → Option LostClient
  | .register key =>
    if ! written && m.isNew key then m.vacant.map fun n => ⟨key, .ofNat n⟩ else none
  | .insertClient key address =>
    if ! written && m.isNew key then (Ipv4.ofEntry? address).map fun host => ⟨key, host⟩ else none
  | _ => none

/-- A call has nothing to do with a client: it neither names it nor gives its address away, and does
not list the clients. -/
def Avoids (client : LostClient) : Plane.Call → Prop
  | .start _ | .stop _ => True
  | .register key | .eraseClient key => key ≠ client.key
  | .insertClient key address => key ≠ client.key ∧ Ipv4.ofEntry? address ≠ some client.address
  | .clients => False

instance (client : LostClient) : (call : Plane.Call) → Decidable (Avoids client call)
  | .start _ | .stop _ => isTrue trivial
  | .register key | .eraseClient key => inferInstanceAs (Decidable (key ≠ client.key))
  | .insertClient key address => inferInstanceAs (Decidable (key ≠ client.key ∧
      Ipv4.ofEntry? address ≠ some client.address))
  | .clients => isFalse id

/-- Whether the write of a call may be lost: a registration, or the addition of a client with an
address that the pool does not hand out. -/
def mayLose (pool : Pool) : Plane.Call → Bool
  | .register _ => true
  | .insertClient _ address => (Ipv4.ofEntry? address).all fun host => ! pool.assignable host
  | _ => false

/-- Of the clients that calls lose on the way, and of those lost before, no later call has anything
to do with any. -/
def Quiet : List LostClient → Roster → List (Bool × Plane.Call) → Prop
  | _, _, [] => True
  | lost, m, (written, call) :: calls =>
    (∀ client ∈ lost, Avoids client call) ∧ (written || mayLose m.pool call) = true ∧
      Quiet ((m.lost? written call).toList ++ lost) (m.answer written call).2 calls

instance decidableQuiet : (lost : List LostClient) → (m : Roster) →
    (calls : List (Bool × Plane.Call)) → Decidable (Quiet lost m calls)
  | _, _, [] => isTrue trivial
  | lost, m, (written, call) :: calls =>
    have := decidableQuiet ((m.lost? written call).toList ++ lost) (m.answer written call).2 calls
    inferInstanceAs (Decidable (_ ∧ _ ∧ _))

/-! ## Two rosters, one of which lacks clients -/

/-- The numbers of the addresses that clients have. -/
def numbers (lost : List LostClient) : List Nat := lost.map (·.address.toNat)

/-- The roster `m` lacks the clients that are lost: `n` has them as members, and `m` holds the numbers
that it handed out to them. -/
structure Lacks (lost : List LostClient) (m n : Roster) : Prop where
  pool_eq : n.pool = m.pool
  last_lt : m.pool.last < UInt32.size
  server_eq : n.server = m.server
  missing : ∀ client ∈ lost, m.members.get? client.key = none
  added : ∀ client ∈ lost,
    n.members.get? client.key = some ⟨client.key, (Network.host client.address).text⟩
  others : ∀ key, (∀ client ∈ lost, client.key ≠ key) → n.members.get? key = m.members.get? key
  held : ∀ k, m.pool.assignableNumber k = true →
    (k ∈ m.held ↔ k ∈ n.held ∨ k ∈ numbers lost)
  apart : ∀ k ∈ m.held, k ∉ named m.members

section

variable {lost : List LostClient} {m n : Roster}

theorem lacks_refl (hlast : m.pool.last < UInt32.size) (hapart : ∀ k ∈ m.held, k ∉ named m.members) :
    Lacks [] m m where
  pool_eq := rfl
  last_lt := hlast
  server_eq := rfl
  missing := fun client hclient => by cases hclient
  added := fun client hclient => by cases hclient
  others := fun _ _ => rfl
  held := fun k _ => by simp [numbers]
  apart := hapart

/-- The numbers that members have are those that the lost clients have, and those of the others. -/
theorem Lacks.mem_named_iff (h : Lacks lost m n) {k : Nat} :
    k ∈ named n.members ↔ k ∈ named m.members ∨ k ∈ numbers lost := by
  rw [mem_named, mem_named, numbers, List.mem_map]
  constructor
  · rintro ⟨key, member, hmember, hk⟩
    by_cases hlost : ∀ client ∈ lost, client.key ≠ key
    · rw [h.others key hlost] at hmember
      exact Or.inl ⟨key, member, hmember, hk⟩
    · push Not at hlost
      obtain ⟨client, hclient, rfl⟩ := hlost
      obtain rfl := Option.some.inj ((h.added client hclient).symm.trans hmember)
      rw [number_host] at hk
      exact Or.inr ⟨client, hclient, Option.some.inj hk⟩
  · rintro (⟨key, member, hmember, hk⟩ | ⟨client, hclient, rfl⟩)
    · have hothers : ∀ client ∈ lost, client.key ≠ key := by
        rintro client hclient rfl
        rw [h.missing client hclient] at hmember
        cases hmember
      exact ⟨key, member, by rw [h.others key hothers, hmember], hk⟩
    · exact ⟨client.key, _, h.added client hclient, number_host _ _⟩

/-- **The same number is vacant**: what the one roster's members have, the other holds. -/
theorem Lacks.vacant_eq (h : Lacks lost m n) : n.vacant = m.vacant := by
  rw [vacant, vacant, h.pool_eq]
  apply Allocator.firstFrom_congr
  intro k hfirst hlast
  by_cases hgateway : k = m.pool.gateway.toNat
  · simp [hgateway]
  · have hassign : m.pool.assignableNumber k = true :=
      Pool.assignableNumber_iff.mpr ⟨hfirst, by omega, hgateway⟩
    have hnamed := h.mem_named_iff (k := k)
    have hheld := h.held k hassign
    rw [Bool.eq_iff_iff]
    simp only [Bool.and_eq_true, decide_eq_true_eq]
    tauto

/-- A number that is vacant is not that of a lost client. -/
theorem Lacks.ne_of_vacant (h : Lacks lost m n) {k : Nat} (hvacant : m.vacant = some k) :
    ∀ client ∈ lost, client.address ≠ .ofNat k := by
  rintro client hclient haddress
  obtain ⟨hassign, -, hheld⟩ := vacant_eq_some hvacant
  have hlast := (Pool.assignableNumber_iff.mp hassign).2.1
  have hpool := h.last_lt
  have hk : client.address.toNat = k := by
    rw [haddress]
    exact Ipv4.toNat_ofNat (by omega)
  exact hheld ((h.held k hassign).mpr (Or.inr (List.mem_map.mpr ⟨client, hclient, hk⟩)))

/-! ## What keeps the difference -/

theorem Lacks.withServer (h : Lacks lost m n) (server : Option ServerContact) :
    Lacks lost { m with server } { n with server } where
  pool_eq := h.pool_eq
  last_lt := h.last_lt
  server_eq := rfl
  missing := h.missing
  added := h.added
  others := h.others
  held := h.held
  apart := h.apart

/-- A client is written down on both sides. -/
theorem Lacks.enrolled (h : Lacks lost m n) {key : String} {address : Ipv4}
    (hkey : ∀ client ∈ lost, key ≠ client.key) (haddress : ∀ client ∈ lost, client.address ≠ address)
    (hnew : m.members.get? key = none) :
    Lacks lost (m.enrolled key address) (n.enrolled key address) where
  pool_eq := h.pool_eq
  last_lt := h.last_lt
  server_eq := h.server_eq
  missing client hclient := by
    rw [Roster.enrolled, KeyMap.get?_insert_of_ne _ _ (hkey client hclient).symm]
    exact h.missing client hclient
  added client hclient := by
    rw [Roster.enrolled, KeyMap.get?_insert_of_ne _ _ (hkey client hclient).symm]
    exact h.added client hclient
  others other hother := by
    simp only [Roster.enrolled, KeyMap.get?_insert]
    split
    · rfl
    · exact h.others other hother
  held k hk := by
    have hlost : k ∈ numbers lost → k ≠ address.toNat := by
      rintro hmem hsame
      obtain ⟨client, hclient, rfl⟩ := List.mem_map.mp hmem
      exact haddress client hclient (Ipv4.ext_toNat hsame)
    have hheld := h.held k hk
    simp only [Roster.enrolled, Finset.mem_erase]
    tauto
  apart k hk := by
    simp only [Roster.enrolled, Finset.mem_erase] at hk
    rw [Roster.enrolled, mem_named_insert hnew, number_host, not_or]
    exact ⟨fun hsame => hk.1 (Option.some.inj hsame).symm, h.apart k hk.2⟩

/-- A client is written down on one side alone; the other holds its number, if it is one that is
handed out. -/
theorem Lacks.lose (h : Lacks lost m n) {key : String} {address : Ipv4} {held : Finset Nat}
    (hkey : ∀ client ∈ lost, key ≠ client.key) (hnew : m.members.get? key = none)
    (hheld : ∀ k, m.pool.assignableNumber k = true → (k ∈ held ↔ k ∈ m.held ∨ k = address.toNat))
    (hapart : ∀ k ∈ held, k ∉ named m.members) :
    Lacks (⟨key, address⟩ :: lost) { m with held } (n.enrolled key address) where
  pool_eq := h.pool_eq
  last_lt := h.last_lt
  server_eq := h.server_eq
  missing client hclient := by
    rcases List.mem_cons.mp hclient with rfl | hclient
    · exact hnew
    · exact h.missing client hclient
  added client hclient := by
    rcases List.mem_cons.mp hclient with rfl | hclient
    · exact KeyMap.get?_insert_self _ _ _
    · rw [Roster.enrolled, KeyMap.get?_insert_of_ne _ _ (hkey client hclient).symm]
      exact h.added client hclient
  others other hother := by
    have hne : other ≠ key := (hother _ List.mem_cons_self).symm
    rw [Roster.enrolled, KeyMap.get?_insert_of_ne _ _ hne]
    exact h.others other fun client hclient => hother client (List.mem_cons_of_mem _ hclient)
  held k hk := by
    have hbefore := h.held k hk
    have hnow := hheld k hk
    simp only [Roster.enrolled, Finset.mem_erase, numbers, List.map_cons, List.mem_cons]
    rw [← numbers]
    tauto
  apart := hapart

/-- A client is struck out on both sides. -/
theorem Lacks.erased (h : Lacks lost m n) {key : String}
    (hkey : ∀ client ∈ lost, key ≠ client.key) :
    Lacks lost { m with members := m.members.erase key } { n with members := n.members.erase key } where
  pool_eq := h.pool_eq
  last_lt := h.last_lt
  server_eq := h.server_eq
  missing client hclient := by
    rw [KeyMap.get?_erase_of_ne _ (hkey client hclient).symm]
    exact h.missing client hclient
  added client hclient := by
    rw [KeyMap.get?_erase_of_ne _ (hkey client hclient).symm]
    exact h.added client hclient
  others other hother := by
    simp only [KeyMap.get?_erase]
    split
    · rfl
    · exact h.others other hother
  held := h.held
  apart k hk hnamed := by
    obtain ⟨other, member, hmember, hnumber⟩ := mem_named.mp hnamed
    rw [KeyMap.get?_erase] at hmember
    split at hmember
    · cases hmember
    · exact h.apart k hk (mem_named.mpr ⟨other, member, hmember, hnumber⟩)

/-! ## Calls -/

theorem isNew_eq_false {key : String}
    (hreason : m.server = none ∨ (∃ fault, Key.check key = .error fault) ∨
      ∃ member, m.members.get? key = some member) : m.isNew key = false := by
  rcases hreason with hserver | ⟨fault, hcheck⟩ | ⟨member, hmember⟩
  · rw [isNew, hserver]
    rfl
  · rw [isNew, hcheck]
    simp [Except.isOk, Except.toBool]
  · rw [isNew, KeyMap.contains_of_get? hmember]
    simp

theorem isNew_eq_true {key : String} {server : ServerContact} (hserver : m.server = some server)
    (hcheck : Key.check key = .ok ()) (hmember : m.members.get? key = none) :
    m.isNew key = true := by
  rw [isNew, hserver, hcheck, KeyMap.contains, hmember]
  rfl

/-- A registration is answered alike. -/
theorem Lacks.register (h : Lacks lost m n) (written : Bool) {key : String}
    (hkey : ∀ client ∈ lost, key ≠ client.key) :
    (n.answer true (.register key)).1 = (m.answer written (.register key)).1 ∧
      Lacks ((m.lost? written (.register key)).toList ++ lost) (m.answer written (.register key)).2
        (n.answer true (.register key)).2 := by
  have hmember := h.others key fun client hclient => (hkey client hclient).symm
  rw [lost?]
  cases hserver : m.server with
  | none =>
      rw [answer_of_stopped hserver _ (by simp) (by simp), isNew_eq_false (Or.inl hserver),
        answer_of_stopped (h.server_eq.trans hserver) _ (by simp) (by simp), Bool.and_false]
      exact ⟨rfl, h⟩
  | some server =>
      rw [answer_register hserver, answer_register (h.server_eq.trans hserver)]
      simp only [Roster.register, h.vacant_eq, h.pool_eq, hmember]
      cases hcheck : Key.check key with
      | error fault =>
          rw [isNew_eq_false (Or.inr (Or.inl ⟨fault, hcheck⟩)), Bool.and_false]
          exact ⟨rfl, h⟩
      | ok u =>
          cases hfound : m.members.get? key with
          | some member =>
              rw [isNew_eq_false (Or.inr (Or.inr ⟨member, hfound⟩)), Bool.and_false]
              exact ⟨rfl, h⟩
          | none =>
              rw [isNew_eq_true hserver hcheck hfound, Bool.and_true]
              cases hvacant : m.vacant with
              | none => cases written <;> exact ⟨rfl, h⟩
              | some k =>
                  obtain ⟨hassign, hnamed, -⟩ := vacant_eq_some hvacant
                  cases written with
                  | true => exact ⟨rfl, h.enrolled hkey (h.ne_of_vacant hvacant) hfound⟩
                  | false =>
                      have hlast := (Pool.assignableNumber_iff.mp hassign).2.1
                      have hpool := h.last_lt
                      have hk : (Ipv4.ofNat k).toNat = k := Ipv4.toNat_ofNat (by omega)
                      refine ⟨rfl, h.lose hkey hfound (fun j _ => ?_) fun j hj => ?_⟩
                      · rw [Finset.mem_insert, hk, or_comm]
                      · rcases Finset.mem_insert.mp hj with rfl | hj
                        · exact hnamed
                        · exact h.apart j hj

/-- A client that is given an address is answered alike. -/
theorem Lacks.insertClient (h : Lacks lost m n) {written : Bool} {key address : String}
    (havoids : ∀ client ∈ lost, Avoids client (.insertClient key address))
    (hmay : (written || mayLose m.pool (.insertClient key address)) = true) :
    (n.answer true (.insertClient key address)).1 =
        (m.answer written (.insertClient key address)).1 ∧
      Lacks ((m.lost? written (.insertClient key address)).toList ++ lost)
        (m.answer written (.insertClient key address)).2
        (n.answer true (.insertClient key address)).2 := by
  have hkey : ∀ client ∈ lost, key ≠ client.key := fun client hclient => (havoids client hclient).1
  have hmember := h.others key fun client hclient => (hkey client hclient).symm
  rw [lost?]
  cases hserver : m.server with
  | none =>
      rw [answer_of_stopped hserver _ (by simp) (by simp), isNew_eq_false (Or.inl hserver),
        answer_of_stopped (h.server_eq.trans hserver) _ (by simp) (by simp), Bool.and_false]
      exact ⟨rfl, h⟩
  | some server =>
      rw [answer_insertClient hserver, answer_insertClient (h.server_eq.trans hserver)]
      simp only [Roster.insertClient, hmember]
      cases hcheck : Key.check key with
      | error fault =>
          rw [isNew_eq_false (Or.inr (Or.inl ⟨fault, hcheck⟩)), Bool.and_false]
          exact ⟨rfl, h⟩
      | ok u =>
          cases hhost : Ipv4.ofEntry? address with
          | none =>
              rw [Option.map_none, ite_self]
              exact ⟨rfl, h⟩
          | some host =>
              cases hfound : m.members.get? key with
              | some member =>
                  rw [isNew_eq_false (Or.inr (Or.inr ⟨member, hfound⟩)), Bool.and_false]
                  by_cases hsame : member.address = (Network.host host).text
                  · simp only [hsame, if_true]
                    exact ⟨trivial, h⟩
                  · simp only [hsame, if_false]
                    exact ⟨trivial, h⟩
              | none =>
                  rw [isNew_eq_true hserver hcheck hfound, Bool.and_true]
                  cases written with
                  | true =>
                      have hother : ∀ client ∈ lost, client.address ≠ host := by
                        rintro client hclient rfl
                        exact (havoids client hclient).2 hhost
                      exact ⟨rfl, h.enrolled hkey hother hfound⟩
                  | false =>
                      have houtside : m.pool.assignable host = false := by
                        simpa [mayLose, hhost] using hmay
                      refine ⟨rfl, h.lose hkey hfound (fun j hj => ?_) h.apart⟩
                      have hne : j ≠ host.toNat := by
                        rintro rfl
                        rw [Pool.assignable, hj] at houtside
                        cases houtside
                      simp [hne]

/-- **A call that has nothing to do with lost clients is answered alike.** -/
theorem Lacks.answer (h : Lacks lost m n) {written : Bool} {call : Plane.Call}
    (havoids : ∀ client ∈ lost, Avoids client call)
    (hmay : (written || mayLose m.pool call) = true) :
    (n.answer true call).1 = (m.answer written call).1 ∧
      Lacks ((m.lost? written call).toList ++ lost) (m.answer written call).2
        (n.answer true call).2 := by
  cases call with
  | start config =>
      simp only [Roster.answer, lost?, h.server_eq]
      cases m.server with
      | some server => exact ⟨rfl, h⟩
      | none =>
          cases Plane.validate config with
          | error reason => exact ⟨rfl, h⟩
          | ok publicKey => exact ⟨rfl, h.withServer _⟩
  | stop deadline => exact ⟨rfl, h.withServer none⟩
  | register key => exact h.register written havoids
  | insertClient key address => exact h.insertClient havoids hmay
  | eraseClient key =>
      have hwritten : written = true := by
        cases written with
        | true => rfl
        | false => cases hmay
      have hlost : m.lost? true (.eraseClient key) = none := rfl
      rw [hwritten, hlost]
      cases hserver : m.server with
      | none =>
          rw [answer_of_stopped hserver _ (by simp) (by simp),
            answer_of_stopped (h.server_eq.trans hserver) _ (by simp) (by simp)]
          exact ⟨rfl, h⟩
      | some server =>
          rw [answer_eraseClient hserver, answer_eraseClient (h.server_eq.trans hserver),
            Roster.eraseClient, Roster.eraseClient]
          cases Key.check key with
          | error fault => exact ⟨rfl, h⟩
          | ok u => exact ⟨rfl, h.erased havoids⟩
  | clients =>
      -- nothing is lost yet
      have hsame : n.members = m.members := by
        apply KeyMap.ext_get?
        intro key
        exact h.others key fun client hclient => absurd (havoids client hclient) id
      simp only [Roster.answer, h.server_eq, hsame]
      exact ⟨trivial, h⟩

/-- **Calls that leave lost clients alone are answered as if nothing had been lost.** -/
theorem Lacks.answers (h : Lacks lost m n) {calls : List (Bool × Plane.Call)}
    (hquiet : Quiet lost m calls) :
    (n.answers (calls.map fun c => (true, c.2))).1 = (m.answers calls).1 := by
  induction calls generalizing lost m n with
  | nil => rfl
  | cons c calls ih =>
      obtain ⟨written, call⟩ := c
      obtain ⟨havoids, hmay, hrest⟩ := hquiet
      obtain ⟨hanswer, hlacks⟩ := h.answer havoids hmay
      simp only [List.map_cons, Roster.answers, hanswer, ih hlacks hrest]

end

/-- **A client that is lost does not get its address again**: the number is held, and nothing tells
whose it is. -/
theorem ne_of_lost {m : Roster} {key address : String} {server : ServerContact}
    (hlast : m.pool.last < UInt32.size) (hrunning : m.server = some server)
    (hmember : m.members.get? key = none)
    (hlost : (m.answer false (.register key)).1 = .registered address server) (written : Bool) :
    ((m.answer false (.register key)).2.answer written (.register key)).1 ≠
      .registered address server := by
  rw [answer_register hrunning, Roster.register] at hlost ⊢
  cases hcheck : Key.check key with
  | error fault =>
      rw [hcheck] at hlost
      cases hlost
  | ok u =>
      cases hvacant : m.vacant with
      | none =>
          simp only [hcheck, hmember, hvacant] at hlost
          cases hlost
      | some k =>
          simp only [hcheck, hmember, hvacant] at hlost ⊢
          obtain rfl := (Answer.registered.inj hlost).1
          have hrunning' : { m with held := insert k m.held }.server = some server := hrunning
          have hmember' : { m with held := insert k m.held }.members.get? key = none := hmember
          show (Roster.answer { m with held := insert k m.held } written (.register key)).1 ≠ _
          rw [answer_register hrunning', Roster.register, hcheck, hmember']
          cases hagain : Roster.vacant { m with held := insert k m.held } with
          | none => simp
          | some j =>
              obtain ⟨hassign, -, hheld⟩ := vacant_eq_some hagain
              have hne : j ≠ k := by
                rintro rfl
                exact hheld (Finset.mem_insert_self _ _)
              have hj := (Pool.assignableNumber_iff.mp hassign).2.1
              have hk := (Pool.assignableNumber_iff.mp (vacant_eq_some hvacant).1).2.1
              have hj' : j < UInt32.size := lt_of_le_of_lt hj hlast
              have hk' : k < UInt32.size := lt_of_le_of_lt hk hlast
              intro hsame
              have htext := Network.host_text_inj (Answer.registered.inj hsame).1
              have hnumber := congrArg Ipv4.toNat htext
              rw [Ipv4.toNat_ofNat hj', Ipv4.toNat_ofNat hk'] at hnumber
              exact hne hnumber

end Roster

namespace Plane

variable {ω δ : Type}

/-! ## Control planes whose writes fail -/

/-- The control plane with these failures of its file system in store. -/
def facing {β : Type} (p : Plane β) (failures : List (Option DiskFailure)) : Plane β :=
  { p with host := { p.host with disk := { p.host.disk with failures } } }

theorem map_traced {β : Type} (b : Backend β) (p : Plane β) (calls : List Call) :
    (p.traced b calls).map (fun c => (true, c.2)) = calls.map (true, ·) := by
  induction calls generalizing p with
  | nil => rfl
  | cons call calls ih => rw [traced, List.map_cons, List.map_cons, ih]

/-- **A client that could not be written down goes unnoticed until somebody asks for it.** Whatever
calls a control plane has answered before, let it answer further ones once while writes of the
registry's file fail and once while all of them succeed. The replies are the same, dates aside, as
long as only clients that register are lost, or such as are given an address that the pool does not
hand out, and no later call has anything to do with them. -/
theorem lost_writes_unnoticed (e : Engine ω δ) (he : e.Accepts) {host : Host} {path : Path}
    {config : PoolConfig} {w : ω} {p : Plane (EngineTunnel δ × ω)}
    (hopen : openAt host path config ({}, w) = .ok p) (before calls : List Call)
    (failing intact : List (Option DiskFailure)) :
    let b := EngineTunnel.backend e
    let q := (p.serve b before).2
    (q.facing intact).writesSucceed b calls = true →
      Quiet [] q.roster ((q.facing failing).traced b calls) →
      ((q.facing failing).serve b calls).1.map Reply.undated =
        ((q.facing intact).serve b calls).1.map Reply.undated := by
  intro b q hwrites hquiet
  have hq : Steady q := steady_serve (steady_openAt hopen) before
  -- neither the roster nor the working order depends on what is in store
  have hfailing := answers_serve he (p := q.facing failing) ⟨⟨hq.orderly.sound, hq.orderly.up⟩, hq.down⟩
    calls
  have hintact := answers_serve he (p := q.facing intact) ⟨⟨hq.orderly.sound, hq.orderly.up⟩, hq.down⟩
    calls
  have hlacks : Lacks [] q.roster q.roster :=
    lacks_refl hq.orderly.sound.last_lt fun k hk => (Finset.mem_sdiff.mp hk).2
  have hsame := hlacks.answers hquiet
  rw [map_traced] at hsame
  rw [traced_of_writesSucceed hwrites] at hintact
  have hleft := congrArg Prod.fst hfailing
  have hright := congrArg Prod.fst hintact
  exact (hleft.symm.trans hsame.symm).trans hright

/-- The first of three clients is lost, the second comes and goes, and the third is given the second's
address, as it would be if nothing had been lost. -/
theorem lost_write_unnoticed_by_others :
    let b := EngineTunnel.backend Engine.bare
    let key₁ := "xTIBA5rboUvnH4htodjb6e697QjLERt1NAB4mZqp8Dg="
    let key₂ := "HIgo9xNzJMWLKASShiTqIybxZ0U3wGLiUeJ1PKf8ykw="
    let key₃ := "TrMvSoP4jYQlY6RIzBgbssQqY3vxI2Pi+y71lOWWXX0="
    let before : List Call := [.start trialSettings]
    let calls : List Call := [.register key₁, .register key₂, .eraseClient key₂, .register key₃]
    ∃ p : Plane (EngineTunnel Unit × KeyMap Engine.PeerEntry),
      openAt (trialHost [none]) trialPath trialPool ({}, ∅) = .ok p ∧
      let q := (p.serve b before).2
      let lossy := (q.facing [some ⟨.noSpace, 0⟩]).serve b calls
      lossy.2.registry.peers.keys = [key₃] ∧
        lossy.1.map Reply.undated = ((q.facing []).serve b calls).1.map Reply.undated := by
  intro b key₁ key₂ key₃ before calls
  let p : Plane (EngineTunnel Unit × KeyMap Engine.PeerEntry) := trial ({}, ∅) []
  have hopen : openAt (trialHost [none]) trialPath trialPool ({}, ∅) = .ok p := openAt_trial _ []
  obtain ⟨hkeys, hwrites, hquiet⟩ :
      let q := (p.serve b before).2
      ((q.facing [some ⟨.noSpace, 0⟩]).serve b calls).2.registry.peers.keys = [key₃] ∧
        (q.facing []).writesSucceed b calls = true ∧
        Quiet [] q.roster ((q.facing [some ⟨.noSpace, 0⟩]).traced b calls) := by decide +kernel
  clear_value p before calls
  exact ⟨p, hopen, hkeys, lost_writes_unnoticed Engine.bare Engine.bare_accepts hopen before calls
    [some ⟨.noSpace, 0⟩] [] hwrites hquiet⟩

/-- A client that could not be written down and registers again is told another address, while it
would have been told the same if it had been written down. -/
theorem lost_client_told_another_address :
    let b := EngineTunnel.backend Engine.bare
    let key := "xTIBA5rboUvnH4htodjb6e697QjLERt1NAB4mZqp8Dg="
    let calls : List Call := [.register key, .register key]
    let q := ((trial ({}, ∅) [] : Plane (EngineTunnel Unit × KeyMap Engine.PeerEntry)).serve b
      [.start trialSettings]).2
    let told := fun failures =>
      (((q.facing failures).serve b calls).1.map Reply.undated).map Answer.address?
    (q.facing []).writesSucceed b calls = true ∧
      told [] = [some "10.0.0.2/32", some "10.0.0.2/32"] ∧
      told [some ⟨.noSpace, 0⟩] = [some "10.0.0.2/32", some "10.0.0.3/32"] := by
  decide +kernel

end Plane

end OverlayVpn
