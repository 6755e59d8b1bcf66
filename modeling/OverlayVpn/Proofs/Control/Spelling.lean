import OverlayVpn.Proofs.Control.Restart
import OverlayVpn.Proofs.Net.Spelling

set_option autoImplicit false

/-! # Clients that are added again

A client's address may be given in any spelling, but it is written down in one: the address with the
length of a single host. Adding a client that is written down therefore compares addresses and not
texts. With its own address, however spelled, the call succeeds and writes nothing
(`insertClient_known`); with another it is refused before anything is touched
(`insertClient_elsewhere`). Nor can the address be had by somebody else in another spelling
(`Allocator.isFree_of_known`). -/

namespace OverlayVpn

open Text

/-- **An address that is known to be taken is free in no spelling.** -/
theorem Allocator.isFree_of_known {known : List String} {entry candidate : String} {address : Ipv4}
    (hentry : entry ∈ known) (hnames : Ipv4.ofEntry? entry = some address)
    (hcandidate : Ipv4.ofEntry? candidate = some address) (a : Allocator) :
    a.isFree candidate known = false := by
  rw [Bool.eq_false_iff]
  intro hfree
  obtain ⟨other, hother, -, hunknown, -⟩ := isFree_iff.mp hfree
  obtain rfl := Option.some.inj (hcandidate.symm.trans hother)
  exact hunknown entry hentry hnames

namespace Plane

/-! ## Clients that are written down -/

section

variable {β : Type} {b : Backend β} {p q : Plane β} {key address : String} {host : Ipv4}
  {record : RegisteredPeer}

/-- The address of a client that is written down is among those of the registry. -/
theorem mem_addresses (hrecord : p.registry.peers.get? key = some record) :
    record.allowedAddress ∈ p.registry.addresses :=
  List.mem_map.mpr ⟨record, KeyMap.mem_values_iff.mpr ⟨key, hrecord⟩, rfl⟩

/-- A control plane that runs adds a client. -/
theorem perform_insertClient (hrunning : p.running.isSome = true) (b : Backend β)
    (key address : String) : p.perform b (.insertClient key address) =
      (.ofResult .inserted ((addRunning b key address).run p).1,
        ((addRunning b key address).run p).2) := by
  have hup : p.running.isNone = false := Option.isNone_eq_false_iff.mpr hrunning
  simp only [perform, insertClient, Task.run_then, Task.run_look, hup, Bool.false_eq_true, if_false]

/-- **A client that is added with another address than it has is refused**, and nothing changes. -/
theorem insertClient_elsewhere (hrunning : p.running.isSome = true) (hkey : Key.check key = .ok ())
    (hrecord : p.registry.peers.get? key = some record) (haddress : Ipv4.ofEntry? address = some host)
    (hother : record.allowedAddress ≠ (Network.host host).text) :
    p.perform b (.insertClient key address) =
      (.failed (.alreadyRegistered key record.allowedAddress), p) := by
  have hkept : (p.registry.peers.get? key).filter (·.allowedAddress ≠ (Network.host host).text) =
      some record := by
    rw [hrecord, Option.filter_some, decide_eq_true hother]
    rfl
  rw [perform_insertClient hrunning]
  simp only [addRunning, hkey, haddress, Task.run_then, run_lookUp, hkept]
  rfl

/-- **A client that is added with the address that it has** stays as it is. The backend is told of it
once more, and takes it. -/
theorem insertClient_known (hrunning : p.running.isSome = true) (hkey : Key.check key = .ok ())
    (hrecord : p.registry.peers.get? key = some record) (haddress : Ipv4.ofEntry? address = some host)
    (hsame : record.allowedAddress = (Network.host host).text)
    (htold : (b.allowPeer key [(Network.host host).text] p.backend).1 = .ok ()) :
    p.perform b (.insertClient key address) = (.inserted (Network.host host).text,
      { p with backend := (b.allowPeer key [(Network.host host).text] p.backend).2 }) := by
  have hrecords : ∀ found, p.registry.peers.get? key = some found →
      found.allowedAddress = (Network.host host).text := by
    intro found hfound
    obtain rfl := Option.some.inj (hrecord.symm.trans hfound)
    exact hsame
  rw [perform_insertClient hrunning, run_addRunning b hkey haddress hrecords]
  cases htell : b.allowPeer key [(Network.host host).text] p.backend with
  | mk result backend =>
      rw [htell] at htold
      obtain rfl : result = .ok () := htold
      have hrecorded := recorded_of_known (p := { p with backend }) hrecord hsame
      simp only [Reply.ofResult, hrecorded]

end

/-! ## Clients that were added once -/

variable {ω δ : Type} {e : Engine ω δ} {p q : Plane (EngineTunnel δ × ω)} {key address : String}

/-- **A client that was added and could be written down** has a record of its address in the one
spelling that the reply tells. -/
theorem exists_record_of_inserted {allowed : String}
    (houtcome : Outcome (EngineTunnel.backend e) p (.insertClient key address) (.inserted allowed) q)
    (hwrite : MayWrite p (.insertClient key address) (.inserted allowed)) :
    Key.check key = .ok () ∧ ∃ host record, Ipv4.ofEntry? address = some host ∧
      allowed = (Network.host host).text ∧ q.registry.peers.get? key = some record ∧
      record.allowedAddress = (Network.host host).text := by
  cases houtcome with
  | @inserted _ _ host backend hrunning hhost hrecord htold hkey =>
      obtain ⟨record, haddress, hget⟩ := exists_record_of_mayWrite
        (p := p) (r := { p with backend }) rfl rfl hrecord hwrite rfl
        fun hnone => writes_insertClient hnone hhost
      exact ⟨hkey, host, record, hhost, rfl, (hget key).trans (if_pos rfl), haddress⟩

/-- **The spelling of an address does not matter.** An entry names an address exactly when it is one
of the address's spellings, blanks aside: so do the form in which it is written down and the address
with every length up to 32, and no entry with an octet above 255 or a length above 32 names any.

So it is with clients of a control plane that was opened with any registry and has answered any calls,
while the engine accepts every request. Once a client has been added and written down, and as long as
it is not removed, it can be added again with its address in every spelling, and the registry and its
file stay as they are; with another address it is refused and nothing changes; and in no spelling does
its address count as free. -/
theorem spelling_does_not_matter (e : Engine ω δ) (he : e.Accepts) {host : Host} {path : Path}
    {config : PoolConfig} {w : ω} {p : Plane (EngineTunnel δ × ω)}
    (hopen : openAt host path config ({}, w) = .ok p) :
    (∀ (s : String) (a : Ipv4), Ipv4.ofEntry? s = some a ↔ a.Entry (trimmed s.toList)) ∧
    (∀ (s left right : String) (a : Ipv4), Ipv4.ofEntry? s = some a → blank left = true →
      blank right = true →
        Ipv4.ofEntry? (Network.host a).text = some a ∧ Ipv4.ofEntry? (left ++ s ++ right) = some a ∧
        ∀ n ≤ 32, Ipv4.ofEntry? (left ++ (a.text ++ "/" ++ Decimal.render n) ++ right) = some a) ∧
    (∀ (s : String) (part : List Char) (n : Nat), part ∈ pieces Ipv4.isDivider (trimmed s.toList) →
      Decimal.digits? part = some n → 255 < n → Ipv4.ofEntry? s = none) ∧
    (∀ (s : String) (front part : List Char) (n : Nat), trimmed s.toList = front ++ '/' :: part →
      Decimal.digits? part = some n → 32 < n → Ipv4.ofEntry? s = none) ∧
    ∀ (before between : List Call) (key s allowed : String),
      let b := EngineTunnel.backend e
      let q := (p.serve b before).2
      let added := q.perform b (.insertClient key s)
      let r := (added.2.serve b between).2
      added.1 = .inserted allowed → q.writeSucceeds b (.insertClient key s) = true →
      .eraseClient key ∉ between → r.running.isSome = true →
        ∃ a, Ipv4.ofEntry? s = some a ∧ allowed = (Network.host a).text ∧
          (∀ t, Ipv4.ofEntry? t = some a →
            let again := r.perform b (.insertClient key t)
            again.1 = .inserted allowed ∧ again.2.registry = r.registry ∧ again.2.host = r.host) ∧
          (∀ t other, Ipv4.ofEntry? t = some other → other ≠ a →
            r.perform b (.insertClient key t) = (.failed (.alreadyRegistered key allowed), r)) ∧
          ∀ t, Ipv4.ofEntry? t = some a → ∀ allocator : Allocator,
            allocator.isFree t r.registry.addresses = false := by
  refine ⟨fun s a => Ipv4.ofEntry?_eq_some_iff, ?_, fun s part n => Ipv4.ofEntry?_eq_none_of_octet,
    fun s front part n => Ipv4.ofEntry?_eq_none_of_length, ?_⟩
  · intro s left right a hs hleft hright
    refine ⟨Network.ofEntry?_host a, (Ipv4.ofEntry?_among_blanks hleft hright s).trans hs, ?_⟩
    intro n hn
    exact (Ipv4.ofEntry?_among_blanks hleft hright _).trans (Network.ofEntry?_text ⟨a, n, hn⟩)
  · intro before between key s allowed b q added r hadded hwrite hkept hrunning
    -- what is left once the client has been added and the calls after that have been answered
    have houtcome : Outcome b q (.insertClient key s) added.1 added.2 := outcome_perform b q _
    have hmay : MayWrite q (.insertClient key s) added.1 := mayWrite_of_writeSucceeds hwrite
    rw [hadded] at houtcome hmay
    obtain ⟨hkey, a, record, hs, rfl, hrecord, haddress⟩ := exists_record_of_inserted houtcome hmay
    have hfound : r.registry.peers.get? key = some record := get?_serve hrecord hkept
    have hsteady : Steady r :=
      steady_serve (steady_outcome (steady_serve (steady_openAt hopen) before) houtcome) between
    obtain ⟨hup, hsome⟩ := hsteady.orderly.up hrunning
    obtain ⟨device, hdevice⟩ := Option.isSome_iff_exists.mp hsome
    refine ⟨a, hs, rfl, fun t ht => ?_, fun t other ht hne => ?_, fun t ht => ?_⟩
    · have htold := EngineTunnel.allowPeer_of_accepts he hup hdevice hkey [(Network.host a).text]
      intro again
      have hagain : again = _ := insertClient_known hrunning hkey hfound ht haddress htold
      rw [hagain]
      exact ⟨rfl, rfl, rfl⟩
    · have hother : record.allowedAddress ≠ (Network.host other).text := fun heq =>
        hne (Network.host_text_inj (heq.symm.trans haddress))
      rw [← haddress]
      exact insertClient_elsewhere hrunning hkey hfound ht hother
    · refine Allocator.isFree_of_known (mem_addresses hfound) ?_ ht
      rw [haddress]
      exact Network.ofEntry?_host a

/-- A client is added with zeros in its address and a length. Another registers, and the server is
stopped and started again. The client can then be added with blanks around its address, but not with
the next address; and an address with a large octet or length is none. -/
theorem spelling_does_not_matter_after_second_start :
    let b := EngineTunnel.backend Engine.bare
    let key := "xTIBA5rboUvnH4htodjb6e697QjLERt1NAB4mZqp8Dg="
    let other := "HIgo9xNzJMWLKASShiTqIybxZ0U3wGLiUeJ1PKf8ykw="
    let between : List Call := [.register other, .stop 1000, .start trialSettings]
    ∃ p : Plane (EngineTunnel Unit × KeyMap Engine.PeerEntry),
      openAt (trialHost [none]) trialPath trialPool ({}, ∅) = .ok p ∧
      let q := (p.serve b [.start trialSettings]).2
      let added := q.perform b (.insertClient key "010.0.000.3/8")
      let r := (added.2.serve b between).2
      let again := r.perform b (.insertClient key " 10.0.0.3\n")
      added.1 = .inserted "10.0.0.3/32" ∧ r.registry.peers.keys = [other, key] ∧
        again.1 = .inserted "10.0.0.3/32" ∧ again.2.registry = r.registry ∧ again.2.host = r.host ∧
        r.perform b (.insertClient key "10.0.0.4") =
          (.failed (.alreadyRegistered key "10.0.0.3/32"), r) ∧
        r.allocator.isFree "10.00.0.03/32" r.registry.addresses = false ∧
        Ipv4.ofEntry? "10.0.0.256/8" = none ∧ Ipv4.ofEntry? "10.0.0.3/33" = none := by
  intro b key other between
  let p : Plane (EngineTunnel Unit × KeyMap Engine.PeerEntry) := trial ({}, ∅) []
  have hopen : openAt (trialHost [none]) trialPath trialPool ({}, ∅) = .ok p := openAt_trial _ []
  obtain ⟨hadded, hwrite, hrunning, hkeys⟩ :
      let q := (p.serve b [.start trialSettings]).2
      let added := q.perform b (.insertClient key "010.0.000.3/8")
      let r := (added.2.serve b between).2
      added.1 = .inserted "10.0.0.3/32" ∧
        q.writeSucceeds b (.insertClient key "010.0.000.3/8") = true ∧
        r.running.isSome = true ∧ r.registry.peers.keys = [other, key] := by decide +kernel
  have hkept : Call.eraseClient key ∉ between := by decide
  clear_value p between
  obtain ⟨-, -, hoctet, hlength, hclients⟩ :=
    spelling_does_not_matter Engine.bare Engine.bare_accepts hopen
  obtain ⟨a, hread, -, hagain, hother, hfree⟩ :=
    hclients [.start trialSettings] between key _ _ hadded hwrite hkept hrunning
  obtain rfl : Ipv4.ofOctets 10 0 0 3 = a := Option.some.inj (by
    rw [← hread]
    decide +kernel)
  obtain ⟨hreply, hregistry, hhost⟩ := hagain " 10.0.0.3\n" (by decide +kernel)
  exact ⟨p, hopen, hadded, hkeys, hreply, hregistry, hhost,
    hother "10.0.0.4" (Ipv4.ofOctets 10 0 0 4) (by decide +kernel) (by decide +kernel),
    hfree "10.00.0.03/32" (by decide +kernel) _,
    hoctet _ "256".toList 256 (by decide +kernel) (by decide +kernel) (by decide),
    hlength _ "10.0.0.3".toList "33".toList 33 (by decide +kernel) (by decide +kernel) (by decide)⟩

end Plane

end OverlayVpn
