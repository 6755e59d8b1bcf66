import Mathlib.Algebra.BigOperators.Group.List.Basic
import Mathlib.Algebra.Ring.Nat
import Mathlib.Order.MinMax
import OverlayVpn.Proofs.Time.Timestamp
import OverlayVpn.Tunnel.EngineTunnel

set_option autoImplicit false

/-! # What is told to have passed through a tunnel

The counts of the peers are added up in 64 bits, one peer after another, and the call breaks off as
soon as a sum does not fit. This comes to the same as adding them up without bounds and looking at
the two totals once (`foldlM_count`): no sum on the way is larger than a total. The time that is told
is that of the latest handshake. So the reply depends on totals and on a maximum, and not on the order
of the peers (`statsOf_perm`). -/

namespace OverlayVpn.EngineTunnel

open Engine

variable {ω δ : Type}

/-- What peers count, added up. -/
def total (counter : PeerState → UInt64) (peers : List PeerState) : Nat :=
  (peers.map fun peer => (counter peer).toNat).sum

/-! ## Sums -/

theorem total_cons (counter : PeerState → UInt64) (peer : PeerState) (peers : List PeerState) :
    total counter (peer :: peers) = (counter peer).toNat + total counter peers := by
  rw [total, List.map_cons, List.sum_cons, total]

theorem total_perm {peers peers' : List PeerState} (h : peers.Perm peers')
    (counter : PeerState → UInt64) : total counter peers = total counter peers' :=
  (h.map _).sum_eq

/-- What is told of two totals, if both fit in 64 bits. -/
def told (received sent : Nat) (lastHandshake : Option Timestamp) : Option Transfer :=
  if received < 2 ^ 64 ∧ sent < 2 ^ 64 then some ⟨.ofNat received, .ofNat sent, lastHandshake⟩
  else none

theorem add?_eq (a b : UInt64) :
    add? a b = if a.toNat + b.toNat < 2 ^ 64 then some (.ofNat (a.toNat + b.toNat)) else none := by
  rw [add?, UInt64.ofNat_add, UInt64.ofNat_toNat, UInt64.ofNat_toNat]
  rfl

/-- The counts of one more peer are added to what is told. -/
theorem count_eq (stats : Transfer) (peer : PeerState) :
    count stats peer = told (stats.received.toNat + peer.received.toNat)
      (stats.sent.toNat + peer.sent.toNat) (latest stats.lastHandshake (handshake peer)) := by
  simp only [count, add?_eq, told]
  by_cases hreceived : stats.received.toNat + peer.received.toNat < 2 ^ 64
  · by_cases hsent : stats.sent.toNat + peer.sent.toNat < 2 ^ 64
    · simp only [hreceived, hsent, and_self, if_true]
      rfl
    · simp only [hreceived, hsent, and_false, if_true, if_false]
      rfl
  · simp only [hreceived, false_and, if_false]
    rfl

/-- The latest of a time and the times of peers' handshakes. -/
def latestOf (last : Option Timestamp) (peers : List PeerState) : Option Timestamp :=
  peers.foldl (fun last peer => latest last (handshake peer)) last

/-- **Counting peers one after another tells their totals**, and fails only when a total does not
fit. -/
theorem foldlM_count (peers : List PeerState) (stats : Transfer) :
    peers.foldlM count stats = told (stats.received.toNat + total (·.received) peers)
      (stats.sent.toNat + total (·.sent) peers) (latestOf stats.lastHandshake peers) := by
  induction peers generalizing stats with
  | nil =>
      have hfits := And.intro stats.received.toNat_lt stats.sent.toNat_lt
      simp only [List.foldlM_nil, total, List.map_nil, List.sum_nil, Nat.add_zero, told,
        UInt64.ofNat_toNat]
      rw [if_pos hfits]
      rfl
  | cons peer peers ih =>
      rw [List.foldlM_cons, count_eq, total_cons, total_cons, ← Nat.add_assoc, ← Nat.add_assoc, told]
      split
      · next hfits =>
          -- what is counted so far fits, and so is the number that was added up
          have hreceived := UInt64.toNat_ofNat_of_lt' hfits.1
          have hsent := UInt64.toNat_ofNat_of_lt' hfits.2
          rw [Option.bind_eq_bind, Option.bind_some, ih, hreceived, hsent]
          rfl
      · next hover =>
          -- a sum that does not fit is no larger than the total
          rw [told, if_neg (by omega)]
          rfl

theorem statsOf_eq (state : DeviceState) :
    statsOf state = told (total (·.received) state.peers) (total (·.sent) state.peers)
      (latestOf none state.peers) := by
  have hall := foldlM_count state.peers {}
  rwa [UInt64.toNat_zero, Nat.zero_add, Nat.zero_add] at hall

/-! ## Times -/

theorem latest_right_comm (a b c : Option Timestamp) :
    latest (latest a b) c = latest (latest a c) b := by
  cases a <;> cases b <;> cases c <;>
    simp only [latest, Timestamp.later_eq_max, Option.some.injEq]
  · exact max_comm _ _
  · exact max_right_comm _ _ _

/-- Whether a time is the latest of those that there are, if there are any. -/
def IsLatest (times : List Timestamp) : Option Timestamp → Prop
  | none => times = []
  | some t => t ∈ times ∧ ∀ u ∈ times, u ≤ t

theorem isLatest_latest {times : List Timestamp} {last : Option Timestamp}
    (h : IsLatest times last) (next : Option Timestamp) :
    IsLatest (times ++ next.toList) (latest last next) := by
  cases last with
  | none =>
      obtain rfl : times = [] := h
      cases next <;> simp [latest, IsLatest]
  | some t =>
      obtain ⟨hmem, hle⟩ := h
      cases next with
      | none => simpa [latest, IsLatest] using ⟨hmem, hle⟩
      | some u =>
          rw [latest, Timestamp.later_eq_max]
          refine ⟨?_, fun v hv => ?_⟩
          · rcases max_choice t u with hmax | hmax <;> simp [hmax, hmem]
          · rcases List.mem_append.mp hv with hv | hv
            · exact le_trans (hle v hv) (le_max_left t u)
            · obtain rfl : v = u := by simpa using hv
              exact le_max_right t v

theorem isLatest_latestOf (peers : List PeerState) {times : List Timestamp}
    {last : Option Timestamp} (h : IsLatest times last) :
    IsLatest (times ++ peers.filterMap handshake) (latestOf last peers) := by
  induction peers generalizing times last with
  | nil => simpa [latestOf] using h
  | cons peer peers ih =>
      have hall := ih (isLatest_latest h (handshake peer))
      rw [List.append_assoc] at hall
      have hlist : (peer :: peers).filterMap handshake =
          (handshake peer).toList ++ peers.filterMap handshake := by
        cases hpeer : handshake peer <;> simp [hpeer]
      rwa [hlist]

theorem IsLatest.eq_none_iff {times : List Timestamp} {last : Option Timestamp}
    (h : IsLatest times last) : last = none ↔ times = [] := by
  constructor
  · rintro rfl
    exact h
  · rintro rfl
    cases last with
    | none => rfl
    | some t => exact absurd h.1 List.not_mem_nil

/-- A handshake took place, at a time that can be told. -/
theorem handshake_eq_some_iff {peer : PeerState} {t : Timestamp} :
    handshake peer = some t ↔ 0 < peer.handshakeSeconds ∧
      Timestamp.ofUnix? peer.handshakeSeconds peer.handshakeNanos.toNat = some t := by
  rw [handshake]
  split
  · next hpos => simp [hpos]
  · next hnone => simp only [reduceCtorEq, hnone, false_and]

/-! ## The order of the peers -/

theorem latestOf_perm {peers peers' : List PeerState} (h : peers.Perm peers')
    (last : Option Timestamp) : latestOf last peers = latestOf last peers' :=
  h.foldl_eq' (fun _ _ _ _ last => latest_right_comm last _ _) last

/-- **The order of the peers does not matter.** -/
theorem statsOf_perm {state state' : DeviceState} (h : state.peers.Perm state'.peers) :
    statsOf state = statsOf state' := by
  rw [statsOf_eq, statsOf_eq, total_perm h, total_perm h, latestOf_perm h]

/-! ## What is told -/

/-- Of two handshakes, whether the second was not before the first. -/
def NotBefore (peer other : PeerState) : Prop :=
  other.handshakeSeconds < peer.handshakeSeconds ∨
    other.handshakeSeconds = peer.handshakeSeconds ∧ other.handshakeNanos ≤ peer.handshakeNanos

/-- The latest handshake is that of a peer, and none of another peer was after it. -/
theorem IsLatest.exists_peer {peers : List PeerState} {last : Option Timestamp} {t : Timestamp}
    (h : IsLatest (peers.filterMap handshake) last) (ht : last = some t) :
    ∃ peer ∈ peers, handshake peer = some t ∧
      ∀ other ∈ peers, (handshake other).isSome = true → NotBefore peer other := by
  rw [ht] at h
  obtain ⟨hmem, hle⟩ := h
  obtain ⟨peer, hpeer, hshake⟩ := List.mem_filterMap.mp hmem
  refine ⟨peer, hpeer, hshake, fun other hother hsome => ?_⟩
  obtain ⟨u, hu⟩ := Option.isSome_iff_exists.mp hsome
  have hnot : u ≤ t := hle u (List.mem_filterMap.mpr ⟨other, hother, hu⟩)
  exact (Timestamp.ofUnix?_le_iff (handshake_eq_some_iff.mp hu).2
    (handshake_eq_some_iff.mp hshake).2).mp hnot

section

variable {e : Engine ω δ} {b : EngineTunnel δ} {device : δ} {w w' : ω} {lines : List String}
  {state : DeviceState}

theorem transferred_eq (hrunning : b.running = true) (hdevice : b.device = some device)
    (hget : e.get device w = (.ok lines, w')) (hread : DeviceState.ofLines lines = .ok state) :
    transferred e (b, w) = ((statsOf state).map .ok, b, w') := by
  simp only [transferred, hrunning, hdevice, hget, hread, if_true]

/-- **A tunnel that runs tells the sums of what its peers count**, if both fit in 64 bits, and the
time of the latest handshake that can be told. If a sum does not fit the call breaks off, and leaves
the tunnel as it is. In either case the reply is the same for the same peers in another order. -/
theorem transferred_counts (hrunning : b.running = true) (hdevice : b.device = some device)
    (hget : e.get device w = (.ok lines, w')) (hread : DeviceState.ofLines lines = .ok state) :
    let received := total (·.received) state.peers
    let sent := total (·.sent) state.peers
    (received < 2 ^ 64 → sent < 2 ^ 64 → ∃ stats,
      transferred e (b, w) = (some (.ok stats), b, w') ∧
      stats.received.toNat = received ∧ stats.sent.toNat = sent ∧
      (stats.lastHandshake = none ↔ ∀ peer ∈ state.peers, handshake peer = none) ∧
      ∀ t, stats.lastHandshake = some t → ∃ peer ∈ state.peers, handshake peer = some t ∧
        ∀ other ∈ state.peers, (handshake other).isSome = true → NotBefore peer other) ∧
    (2 ^ 64 ≤ received ∨ 2 ^ 64 ≤ sent → transferred e (b, w) = (none, b, w')) ∧
    ∀ v v' lines' state', e.get device v = (.ok lines', v') →
      DeviceState.ofLines lines' = .ok state' → state'.peers.Perm state.peers →
        (transferred e (b, v)).1 = (transferred e (b, w)).1 := by
  intro received sent
  have htold : transferred e (b, w) =
      ((told received sent (latestOf none state.peers)).map .ok, b, w') := by
    rw [transferred_eq hrunning hdevice hget hread, statsOf_eq]
  refine ⟨fun hreceived hsent => ?_, fun hover => ?_, fun v v' lines' state' hget' hread' hperm => ?_⟩
  · -- the search starts with no time at all, the latest of none
    have hlatest : IsLatest (state.peers.filterMap handshake) (latestOf none state.peers) :=
      @isLatest_latestOf state.peers [] none rfl
    refine ⟨⟨.ofNat received, .ofNat sent, latestOf none state.peers⟩, ?_,
      UInt64.toNat_ofNat_of_lt' hreceived, UInt64.toNat_ofNat_of_lt' hsent, ?_, fun t ht => ?_⟩
    · rw [htold, told, if_pos ⟨hreceived, hsent⟩, Option.map_some]
    · rw [hlatest.eq_none_iff, List.filterMap_eq_nil_iff]
    · exact hlatest.exists_peer ht
  · rw [htold, told, if_neg (by omega), Option.map_none]
  · rw [transferred_eq hrunning hdevice hget' hread', transferred_eq hrunning hdevice hget hread,
      statsOf_perm hperm]

end

/-- An engine whose only device tells the lines that its world is. -/
def teller : Engine (List String) Unit where
  create _ lines := (.ok (), lines)
  set _ _ lines := (.ok (), lines)
  get _ lines := (.ok lines, lines)
  activate _ _ lines := (.ok (), lines)
  close _ _ lines := (.closed, lines)
  deleteLink _ lines := (.ok (), lines)
  discard _ lines := lines

/-- A tunnel that runs. -/
def runningTunnel : EngineTunnel Unit := { device := some (), running := true }

/-- Two peers that have sent something, the second before the first. -/
def busyPeers : DeviceState where
  peers :=
    [{ publicKey := "aa", received := 100, sent := 3, handshakeSeconds := 1700000000 },
      { publicKey := "bb", received := 7, handshakeSeconds := 1600000000, handshakeNanos := 5 }]

/-- What a device with these peers tells. -/
def busyLines : List String :=
  ["public_key=aa", "rx_bytes=100", "tx_bytes=3", "last_handshake_time_sec=1700000000",
    "public_key=bb", "rx_bytes=7", "last_handshake_time_sec=1600000000",
    "last_handshake_time_nsec=5"]

theorem busyLines_counts :
    ∃ stats, transferred teller (runningTunnel, busyLines) =
        (some (.ok stats), runningTunnel, busyLines) ∧
      stats.received.toNat = 107 ∧ stats.sent.toNat = 3 ∧ stats.lastHandshake ≠ none := by
  have hread : DeviceState.ofLines busyLines = .ok busyPeers := by decide +kernel
  obtain ⟨htells, -, -⟩ :=
    transferred_counts (e := teller) (b := runningTunnel) (w := busyLines) rfl rfl rfl hread
  obtain ⟨stats, hstats, hreceived, hsent, hnone, -⟩ := htells (by decide) (by decide)
  refine ⟨stats, hstats, hreceived, hsent, fun hlast => ?_⟩
  have hshake : handshake busyPeers.peers[0] ≠ none := by decide +kernel
  exact hshake (hnone.mp hlast _ (List.getElem_mem _))

/-- Two peers whose counts are too much for 64 bits together. -/
def brimmingPeers : DeviceState where
  peers :=
    [{ publicKey := "aa", received := 18446744073709551615 },
      { publicKey := "bb", received := 1 }]

/-- What a device with these peers tells. -/
def brimmingLines : List String :=
  ["public_key=aa", "rx_bytes=18446744073709551615", "public_key=bb", "rx_bytes=1"]

/-- **What peers have sent can be too much to be told.** -/
theorem sum_of_counts_breaks_off :
    DeviceState.ofLines brimmingLines = .ok brimmingPeers ∧
      total (·.received) brimmingPeers.peers = 2 ^ 64 ∧
      transferred teller (runningTunnel, brimmingLines) = (none, runningTunnel, brimmingLines) := by
  have hread : DeviceState.ofLines brimmingLines = .ok brimmingPeers := by decide +kernel
  refine ⟨hread, rfl, ?_⟩
  rw [transferred_eq rfl rfl rfl hread]
  rfl

end OverlayVpn.EngineTunnel
