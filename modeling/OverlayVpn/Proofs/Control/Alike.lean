import OverlayVpn.Proofs.Control.Registering
import OverlayVpn.Proofs.Pool.Alike
import OverlayVpn.Proofs.Registry.Alike
import OverlayVpn.Proofs.Tunnel.Alike

set_option autoImplicit false

/-! # Control planes that answer alike

Two control planes are alike when nothing in which they differ is ever told, dates aside: their
backends answer alike, their registries and their hosts differ in dates, in what files hold and in
what the clocks show, and their allocators have reserved the same. Every call is then answered alike
and leaves control planes that are alike (`perform_alike`), and so is every list of calls
(`serve_alike`). A call is a task, and its parts are gone through on both sides at once. -/

namespace OverlayVpn

/-- Two servers run with the same settings, since related moments. -/
structure ServerRun.Alike (T : Timestamp → Timestamp → Prop) (r r' : ServerRun) : Prop where
  config : r.config = r'.config
  publicKey : r.publicKey = r'.publicKey
  startedAt : T r.startedAt r'.startedAt

theorem ServerRun.contact_alike {T : Timestamp → Timestamp → Prop} {r r' : ServerRun}
    (h : r.Alike T r') : r.contact = r'.contact := by
  simp only [contact, h.config, h.publicKey]

namespace Plane

variable {β β' : Type}

/-- Two control planes differ in nothing that is told, dates aside. -/
structure Alike (S : β → β' → Prop) (T : Timestamp → Timestamp → Prop) (p : Plane β)
    (p' : Plane β') : Prop where
  backend : S p.backend p'.backend
  registry : p.registry.Alike T p'.registry
  allocator : p.allocator.Alike p'.allocator
  host : p.host.Alike T p'.host
  running : Option.Rel (ServerRun.Alike T) p.running p'.running

/-- Two replies are the same but for dates, which are related. -/
inductive Reply.Alike (T : Timestamp → Timestamp → Prop) : Reply → Reply → Prop where
  | failed (fault : ControlFault) : Reply.Alike T (.failed fault) (.failed fault)
  | started : Reply.Alike T .started .started
  | stopped : Reply.Alike T .stopped .stopped
  | registered (address : String) (server : ServerContact) {date date' : Timestamp}
      (hdate : T date date') :
      Reply.Alike T (.registered ⟨address, date, server⟩) (.registered ⟨address, date', server⟩)
  | inserted (allowed : String) : Reply.Alike T (.inserted allowed) (.inserted allowed)
  | erased : Reply.Alike T .erased .erased
  | clients {peers peers' : KeyMap RegisteredPeer}
      (hpeers : peers.Alike (RegisteredPeer.Alike T) peers') :
      Reply.Alike T (.clients peers) (.clients peers')

theorem Reply.Alike.eq {T : Timestamp → Timestamp → Prop} (hT : ∀ t t', T t t' → t = t')
    {r r' : Reply} (h : Reply.Alike T r r') : r = r' := by
  cases h with
  | registered address server hdate => rw [hT _ _ hdate]
  | clients hpeers => rw [hpeers.eq (RegisteredPeer.Alike.eq hT)]
  | _ => rfl

variable {b : Backend β} {b' : Backend β'} {S : β → β' → Prop} {T : Timestamp → Timestamp → Prop}

/-- The parts of two calls that end in the same. -/
abbrev RunAlike {α : Type} (S : β → β' → Prop) (T : Timestamp → Timestamp → Prop)
    (t : Task (Plane β) α) (t' : Task (Plane β') α) : Prop :=
  Task.Alike (Alike S T) Eq t t'

/-! ## Steps -/

theorem Alike.withBackend {p : Plane β} {p' : Plane β'} (h : p.Alike S T p') {s : β} {s' : β'}
    (hs : S s s') : Alike S T { p with backend := s } { p' with backend := s' } :=
  ⟨hs, h.registry, h.allocator, h.host, h.running⟩

/-- Either both control planes run or neither does. -/
theorem lookRunning_alike :
    Task.Alike (Alike S T) (Option.Rel (ServerRun.Alike T)) (Task.look (·.running))
      (Task.look (·.running)) :=
  Task.alike_look fun _ _ h => h.running

/-- What the backends answer alike the control planes do alike. -/
theorem onBackend_alike {α : Type} {f : β → α × β} {f' : β' → α × β'}
    (hf : ∀ s s', S s s' → (f s).1 = (f' s').1 ∧ S (f s).2 (f' s').2) :
    RunAlike S T (onBackend f) (onBackend f') := by
  intro p p' h
  obtain ⟨hresult, hs⟩ := hf p.backend p'.backend h.backend
  exact ⟨hresult, h.withBackend hs⟩

theorem allowPeer_alike (hb : b.Alike b' S) (key : String) (allowed : List String) :
    RunAlike S T (allowPeer b key allowed) (allowPeer b' key allowed) :=
  onBackend_alike (hb.insertPeer { publicKey := key, allowedAddresses := allowed })

theorem dropPeer_alike (hb : b.Alike b' S) (key : String) :
    RunAlike S T (dropPeer b key) (dropPeer b' key) :=
  onBackend_alike (hb.erasePeer key)

theorem lookUp_alike (key : String) :
    Task.Alike (Alike S T) (Option.Rel (RegisteredPeer.Alike T)) (lookUp key) (lookUp key) :=
  Task.alike_look fun _ _ h => h.registry.peers key

theorem record_alike (key address : String) :
    Task.Alike (Alike S T) (fun r r' => r.map (fun _ => ()) = r'.map (fun _ => ()))
      (record key address) (record key address) := by
  intro p p' h
  obtain ⟨hresult, hregistry, hhost⟩ := Registry.add_alike h.registry h.host key address
  exact ⟨hresult, h.backend, hregistry, h.allocator, hhost, h.running⟩

theorem strike_alike (key : String) :
    Task.Alike (Alike S T) (fun _ _ => True) (strike key) (strike key) := by
  intro p p' h
  obtain ⟨hregistry, hhost⟩ := Registry.remove_alike h.registry h.host key
  exact ⟨trivial, h.backend, hregistry, h.allocator, hhost, h.running⟩

theorem allocate_alike (known : List String) :
    RunAlike S T (allocate known) (allocate known) := by
  intro p p' h
  obtain ⟨hresult, hallocator⟩ := Allocator.allocate_alike h.allocator known
    p.host.clock.read.1 p'.host.clock.read.1
  exact ⟨hresult, h.backend, h.registry, hallocator,
    ⟨h.host.disk, (Clock.read_alike h.host.clock).2⟩, h.running⟩

theorem release_alike (address : Ipv4) : RunAlike S T (release address) (release address) :=
  Task.alike_change fun _ _ h =>
    ⟨h.backend, h.registry, Allocator.release_alike h.allocator address, h.host, h.running⟩

theorem readClock_alike : Task.Alike (Alike S T) T (readClock (β := β)) (readClock (β := β')) := by
  intro p p' h
  obtain ⟨hnow, hclock⟩ := Clock.read_alike h.host.clock
  exact ⟨hnow, h.backend, h.registry, h.allocator, ⟨h.host.disk, hclock⟩, h.running⟩

/-! ## Starting and stopping -/

theorem replay_alike (hb : b.Alike b' S) {entries entries' : List (String × RegisteredPeer)}
    (h : List.Forall₂ (fun e e' => e.1 = e'.1 ∧ e.2.allowedAddress = e'.2.allowedAddress)
      entries entries') : RunAlike S T (replay b entries) (replay b' entries') := by
  induction h with
  | nil => exact Task.alike_pure rfl
  | @cons e e' entries entries' hentry _ ih =>
      obtain ⟨key, record⟩ := e
      obtain ⟨key', record'⟩ := e'
      obtain ⟨rfl : key = key', haddress : record.allowedAddress = record'.allowedAddress⟩ := hentry
      unfold replay
      rw [haddress]
      refine (allowPeer_alike hb key _).bind fun told told' htold => ?_
      refine ih.bind fun counts counts' hcounts => ?_
      exact Task.alike_pure (by rw [htold, hcounts])

/-- The peers are told in the same order. -/
theorem entries_alike {p : Plane β} {p' : Plane β'} (h : p.Alike S T p') :
    List.Forall₂ (fun e e' => e.1 = e'.1 ∧ e.2.allowedAddress = e'.2.allowedAddress)
      p.registry.peers.entries p'.registry.peers.entries := by
  have hmap : p.registry.peers.map (·.allowedAddress) = p'.registry.peers.map (·.allowedAddress) :=
    h.registry.peers.map_eq fun _ _ hrecord => hrecord.allowedAddress
  have hentries := congrArg KeyMap.entries hmap
  simp only [KeyMap.map] at hentries
  rw [← List.forall₂_eq_eq_eq, List.forall₂_map_left_iff, List.forall₂_map_right_iff] at hentries
  exact hentries.imp fun e e' heq => Prod.mk.inj heq

theorem start_alike (hb : b.Alike b' S) (config : TunnelSettings) :
    RunAlike S T (start b config) (start b' config) := by
  refine lookRunning_alike.bind fun running running' hrunning => ?_
  cases hrunning with
  | some hrun => exact Task.alike_pure rfl
  | none =>
      simp only [Option.isSome_none, Bool.false_eq_true, if_false]
      cases validate config with
      | error reason => exact Task.alike_pure rfl
      | ok publicKey =>
          refine (onBackend_alike (hb.start config)).bind fun result result' hresult => ?_
          rw [hresult]
          cases result' with
          | error fault => exact Task.alike_pure rfl
          | ok u =>
              refine (Task.alike_look fun _ _ h => entries_alike h).bind fun _ _ hpeers => ?_
              refine (replay_alike hb hpeers).bind fun _ _ _ => ?_
              refine readClock_alike.bind fun now now' hnow => ?_
              -- from here on both run, each since its own moment
              refine (Task.alike_change fun p p' h => ?_).bind fun _ _ _ => Task.alike_pure rfl
              exact ⟨h.backend, h.registry, h.allocator, h.host, .some ⟨rfl, rfl, hnow⟩⟩

theorem stop_alike (hb : b.Alike b' S) (deadline : Nat) :
    RunAlike S T (stop b deadline) (stop b' deadline) := by
  refine Task.alike_change fun p p' h => ?_
  rcases rel_cases h.running with ⟨hrun, hrun'⟩ | ⟨run, run', -, hrun, hrun'⟩
  · rw [hrun, hrun']
    exact h
  · rw [hrun, hrun']
    obtain ⟨hended, hs⟩ := hb.stop (some deadline) p.backend p'.backend h.backend
    have hstopped : Alike S T { p with running := none } { p' with running := none } :=
      ⟨h.backend, h.registry, h.allocator, h.host, .none⟩
    simp only [Option.isNone_some, Bool.false_eq_true, if_false]
    cases hstop : b.stop (some deadline) p.backend with
    | mk ended s =>
        cases hstop' : b'.stop (some deadline) p'.backend with
        | mk ended' s' =>
            rw [hstop, hstop'] at hended hs
            obtain rfl : ended = ended' := hended
            rcases ended with _ | _ | _
            · exact hstopped.withBackend (hb.abort s s' hs)
            · exact hstopped.withBackend (hb.abort s s' hs)
            · exact hstopped.withBackend hs

/-! ## Clients -/

theorem reinstate_alike (hb : b.Alike b' S) (key address : String) :
    RunAlike S T (reinstate b key address) (reinstate b' key address) := by
  refine (dropPeer_alike hb key).bind fun _ _ _ => ?_
  exact (allowPeer_alike hb key [address]).bind fun _ _ _ => Task.alike_pure rfl

/-- A record that stands in the way stands in the way on both sides. -/
theorem rival_alike {existing existing' : Option RegisteredPeer}
    (h : Option.Rel (RegisteredPeer.Alike T) existing existing') (allowed : String) :
    Option.Rel (RegisteredPeer.Alike T) (rival allowed existing) (rival allowed existing') := by
  unfold rival
  cases h with
  | none => exact .none
  | @some record record' hrecord =>
      -- only the address is looked at
      rw [Option.filter_some, Option.filter_some, hrecord.allowedAddress]
      split
      · exact .some hrecord
      · exact .none

/-- What follows when the client was written down, or was not, depends on the conflict alone. -/
theorem settle_alike (hb : b.Alike b' S) (key allowed : String)
    {result result' : Except Registry.Fault RegisteredPeer}
    (h : result.map (fun _ => ()) = result'.map (fun _ => ())) :
    RunAlike S T (settle b key allowed result) (settle b' key allowed result') := by
  cases result with
  | ok record =>
      cases result' with
      | ok record' => exact Task.alike_pure rfl
      | error fault => cases h
  | error fault =>
      cases result' with
      | ok record' => cases h
      | error fault' =>
          obtain rfl : fault = fault' := by simpa [Except.map] using h
          cases fault with
          | conflict key' existing =>
              exact (reinstate_alike hb key existing).bind fun _ _ _ => Task.alike_pure rfl
          | _ => exact Task.alike_pure rfl

theorem writeDown_alike (hb : b.Alike b' S) (key allowed : String)
    (result : Except BackendFault Unit) :
    RunAlike S T (writeDown b key allowed result) (writeDown b' key allowed result) := by
  cases result with
  | error fault => exact Task.alike_pure rfl
  | ok u => exact (record_alike key allowed).bind fun _ _ h => settle_alike hb key allowed h

theorem addRunning_alike (hb : b.Alike b' S) (key address : String) :
    RunAlike S T (addRunning b key address) (addRunning b' key address) := by
  unfold addRunning
  cases Key.check key with
  | error fault => exact Task.alike_pure rfl
  | ok u =>
      cases Ipv4.ofEntry? address with
      | none => exact Task.alike_pure rfl
      | some host =>
          refine (lookUp_alike key).bind fun existing existing' hexisting => ?_
          rcases rel_cases (rival_alike hexisting (Network.host host).text) with
            ⟨hrival, hrival'⟩ | ⟨record, record', hrecord, hrival, hrival'⟩
          · simp only [rival] at hrival hrival'
            rw [hrival, hrival']
            refine (allowPeer_alike hb key _).bind fun told told' htold => ?_
            rw [htold]
            exact writeDown_alike hb key _ told'
          · simp only [rival] at hrival hrival'
            rw [hrival, hrival']
            exact Task.alike_pure (by rw [hrecord.allowedAddress])

theorem insertClient_alike (hb : b.Alike b' S) (key address : String) :
    RunAlike S T (insertClient b key address) (insertClient b' key address) := by
  refine lookRunning_alike.bind fun running running' hrunning => ?_
  cases hrunning with
  | none => exact Task.alike_pure rfl
  | some hrun =>
      simp only [Option.isNone_some, Bool.false_eq_true, if_false]
      exact addRunning_alike hb key address

theorem eraseClient_alike (hb : b.Alike b' S) (key : String) :
    RunAlike S T (eraseClient b key) (eraseClient b' key) := by
  refine lookRunning_alike.bind fun running running' hrunning => ?_
  cases hrunning with
  | none => exact Task.alike_pure rfl
  | some hrun =>
      refine (dropPeer_alike hb key).bind fun dropped dropped' hdropped => ?_
      rw [hdropped]
      cases dropped' with
      | error fault => exact Task.alike_pure rfl
      | ok u =>
          refine (lookUp_alike key).bind fun record record' hrecord => ?_
          refine (strike_alike key).bind fun _ _ _ => ?_
          have haddress : record.bind (fun r => Ipv4.ofEntry? r.allowedAddress) =
              record'.bind fun r => Ipv4.ofEntry? r.allowedAddress := by
            cases hrecord with
            | none => rfl
            | some h => simp only [Option.bind_some, h.allowedAddress]
          rw [haddress]
          cases record'.bind fun r => Ipv4.ofEntry? r.allowedAddress with
          | none => exact Task.alike_pure rfl
          | some address => exact (release_alike address).bind fun _ _ _ => Task.alike_pure rfl

/-- Two registrations end alike: they fail for one reason, or tell the same but for dates. -/
abbrev RegisterAlike (T : Timestamp → Timestamp → Prop) (r r' : Except ControlFault Registration) :
    Prop :=
  Reply.Alike T (.ofResult .registered r) (.ofResult .registered r')

theorem conclude_alike (key : String) {run run' : ServerRun} (hrun : run.Alike T run')
    (assigned : Network) (added : Except ControlFault String) :
    Task.Alike (Alike S T) (RegisterAlike T) (conclude key run assigned added)
      (conclude key run' assigned added) := by
  cases added with
  | error fault => exact (release_alike _).bind fun _ _ _ => Task.alike_pure (.failed fault)
  | ok allowed =>
      refine (lookUp_alike key).bind fun record record' hrecord => ?_
      cases hrecord with
      | @some record record' h =>
          refine Task.alike_pure ?_
          show Reply.Alike T (.registered ⟨allowed, record.registeredAt, run.contact⟩)
            (.registered ⟨allowed, record'.registeredAt, run'.contact⟩)
          rw [ServerRun.contact_alike hrun]
          exact .registered _ _ h.registeredAt
      | none =>
          refine readClock_alike.bind fun now now' hnow => ?_
          refine Task.alike_pure ?_
          show Reply.Alike T (.registered ⟨allowed, now, run.contact⟩)
            (.registered ⟨allowed, now', run'.contact⟩)
          rw [ServerRun.contact_alike hrun]
          exact .registered _ _ hnow

theorem register_alike (hb : b.Alike b' S) (key : String) :
    Task.Alike (Alike S T) (RegisterAlike T) (register b key) (register b' key) := by
  refine lookRunning_alike.bind fun running running' hrunning => ?_
  cases hrunning with
  | none => exact Task.alike_pure (.failed _)
  | @some run run' hrun =>
      simp only
      cases Key.check key with
      | error fault => exact Task.alike_pure (.failed _)
      | ok u =>
          refine (lookUp_alike key).bind fun existing existing' hexisting => ?_
          cases hexisting with
          | @some record record' hrecord =>
              simp only [hrecord.allowedAddress]
              refine (allowPeer_alike hb key _).bind fun told told' htold => ?_
              rw [htold]
              cases told' with
              | error fault => exact Task.alike_pure (.failed _)
              | ok u =>
                  refine Task.alike_pure ?_
                  simp only [RegisterAlike, Reply.ofResult, ServerRun.contact_alike hrun]
                  exact .registered _ _ hrecord.registeredAt
          | none =>
              refine (Task.alike_look fun _ _ h => Registry.addresses_alike h.registry).bind
                fun known known' hknown => ?_
              rw [hknown]
              -- the allocators may search from different floors and find the same
              refine (allocate_alike known').bind fun leased leased' hleased => ?_
              rw [hleased]
              cases leased' with
              | error fault => exact Task.alike_pure (.failed _)
              | ok assigned =>
                  refine (addRunning_alike hb key assigned.text).bind fun added added' hadded => ?_
                  rw [hadded]
                  exact conclude_alike key hrun assigned added'

/-! ## Calls -/

/-- The steps in which a call is answered. -/
def Call.task (b : Backend β) : Call → Task (Plane β) Reply
  | start config => Plane.start b config >>= fun r => return .ofResult (fun _ => .started) r
  | stop deadline => Plane.stop b deadline >>= fun _ => return .stopped
  | register key => Plane.register b key >>= fun r => return .ofResult .registered r
  | insertClient key address =>
    Plane.insertClient b key address >>= fun r => return .ofResult .inserted r
  | eraseClient key => Plane.eraseClient b key >>= fun r => return .ofResult (fun _ => .erased) r
  | clients => .look fun p => .ofResult .clients p.clients

theorem run_call (b : Backend β) (call : Call) (p : Plane β) :
    (call.task b).run p = p.perform b call := by
  cases call with
  | clients => rfl
  | _ => exact Task.run_then _ _ p

theorem call_alike (hb : b.Alike b' S) (call : Call) :
    Task.Alike (Alike S T) (Reply.Alike T) (call.task b) (call.task b') := by
  cases call with
  | start config =>
      refine (start_alike hb config).bind fun r r' hr => Task.alike_pure ?_
      rw [hr]
      cases r' with
      | ok u => exact .started
      | error fault => exact .failed fault
  | stop deadline => exact (stop_alike hb deadline).bind fun _ _ _ => Task.alike_pure .stopped
  | register key => exact (register_alike hb key).bind fun _ _ h => Task.alike_pure h
  | insertClient key address =>
      refine (insertClient_alike hb key address).bind fun r r' hr => Task.alike_pure ?_
      rw [hr]
      cases r' with
      | ok allowed => exact .inserted allowed
      | error fault => exact .failed fault
  | eraseClient key =>
      refine (eraseClient_alike hb key).bind fun r r' hr => Task.alike_pure ?_
      rw [hr]
      cases r' with
      | ok u => exact .erased
      | error fault => exact .failed fault
  | clients =>
      refine Task.alike_look fun p p' h => ?_
      unfold Plane.clients
      rcases rel_cases h.running with ⟨hrun, hrun'⟩ | ⟨run, run', -, hrun, hrun'⟩
      · rw [hrun, hrun']
        exact .failed .notRunning
      · rw [hrun, hrun']
        exact .clients h.registry.peers

variable {p : Plane β} {p' : Plane β'}

/-- **One call is answered alike**, and leaves control planes that are alike. -/
theorem perform_alike (hb : b.Alike b' S) (h : p.Alike S T p') (call : Call) :
    Reply.Alike T (p.perform b call).1 (p'.perform b' call).1 ∧
      (p.perform b call).2.Alike S T (p'.perform b' call).2 := by
  rw [← run_call, ← run_call]
  exact call_alike hb call p p' h

/-- **Calls one after another are answered alike.** -/
theorem serve_alike (hb : b.Alike b' S) (h : p.Alike S T p') (calls : List Call) :
    List.Forall₂ (Reply.Alike T) (p.serve b calls).1 (p'.serve b' calls).1 ∧
      (p.serve b calls).2.Alike S T (p'.serve b' calls).2 := by
  induction calls generalizing p p' with
  | nil => exact ⟨.nil, h⟩
  | cons call calls ih =>
      obtain ⟨hreply, hafter⟩ := perform_alike hb h call
      obtain ⟨hreplies, hend⟩ := ih hafter
      exact ⟨.cons hreply hreplies, hend⟩

end Plane

end OverlayVpn
