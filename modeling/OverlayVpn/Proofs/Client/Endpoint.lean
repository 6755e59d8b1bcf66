import OverlayVpn.Client.Profile
import OverlayVpn.Proofs.Net.Socket

set_option autoImplicit false

/-! # Endpoints

An endpoint is anything, a colon and a spelling of a port (`splitEndpoint_eq_ok_iff`). The host that
it names is bare: it is not empty and has no brackets around it (`bare_hostOf`). A bare host and a
port are written as an endpoint that names them again, in brackets where the host has colons of its
own (`splitEndpoint_targetText`), so that an endpoint that has been made explicit stays as it is. -/

namespace OverlayVpn

open Text

namespace Profile

/-! ## Hosts -/

/-- A host without the brackets around it. -/
def bareHost (cs : List Char) : List Char :=
  dropEndWhile (· == ']') (cs.dropWhile (· == '['))

/-- The host that the part of an endpoint before its port names. -/
def hostOf (cs : List Char) : String :=
  if (bareHost cs).isEmpty then ownHost else String.ofList (bareHost cs)

/-- A host that is named as it is: it is not empty and has no brackets around it. -/
structure Bare (host : String) : Prop where
  ne_empty : host ≠ ""
  first : host.toList.head? ≠ some '['
  last : host.toList.getLast? ≠ some ']'

theorem head?_bareHost (cs : List Char) : (bareHost cs).head? ≠ some '[' := by
  intro h
  obtain ⟨dropped, hsplit, -⟩ := dropEndWhile_append (· == ']') (cs.dropWhile (· == '['))
  have hhead : (cs.dropWhile (· == '[')).head? = some '[' := by
    have hfirst : (dropEndWhile (· == ']') (cs.dropWhile (· == '['))).head? = some '[' := h
    rw [hsplit, List.head?_append, hfirst]
    rfl
  have hnot := List.head?_dropWhile_not (· == '[') cs
  rw [hhead] at hnot
  cases hnot

theorem getLast?_bareHost (cs : List Char) : (bareHost cs).getLast? ≠ some ']' :=
  fun h => absurd (getLast?_dropEndWhile h) (by decide)

/-- The host of an endpoint is bare. -/
theorem bare_hostOf (cs : List Char) : Bare (hostOf cs) := by
  unfold hostOf
  split
  · exact ⟨by decide, by decide, by decide⟩
  · next hne =>
      refine ⟨fun hempty => hne ?_, ?_, ?_⟩
      · have hlist := congrArg String.toList hempty
        rw [String.toList_ofList] at hlist
        rw [hlist]
        rfl
      · rw [String.toList_ofList]
        exact head?_bareHost cs
      · rw [String.toList_ofList]
        exact getLast?_bareHost cs

theorem bareHost_toList {host : String} (h : Bare host) : bareHost host.toList = host.toList := by
  have hfirst : host.toList.dropWhile (· == '[') = host.toList :=
    dropWhile_eq_self fun c hc => beq_eq_false_iff_ne.mpr fun heq => h.first (heq ▸ hc)
  rw [bareHost, hfirst]
  exact dropEndWhile_eq_self fun c hc => beq_eq_false_iff_ne.mpr fun heq => h.last (heq ▸ hc)

theorem hostOf_of_bareHost {cs : List Char} {host : String} (h : Bare host)
    (hcs : bareHost cs = host.toList) : hostOf cs = host := by
  have hne : host.toList.isEmpty = false := by
    rw [List.isEmpty_eq_false_iff]
    exact fun hnil => h.ne_empty (String.toList_eq_nil_iff.mp hnil)
  rw [hostOf, hcs, hne, String.ofList_toList]
  rfl

/-- A bare host names itself. -/
theorem hostOf_toList {host : String} (h : Bare host) : hostOf host.toList = host :=
  hostOf_of_bareHost h (bareHost_toList h)

/-- A bare host in brackets is named. -/
theorem hostOf_bracketed {host : String} (h : Bare host) :
    hostOf ('[' :: (host.toList ++ [']'])) = host := by
  refine hostOf_of_bareHost h ?_
  -- the bracket that is put in front of the host is the only one there
  have hfirst : (host.toList ++ [']']).dropWhile (· == '[') = host.toList ++ [']'] := by
    refine dropWhile_eq_self fun c hc => beq_eq_false_iff_ne.mpr ?_
    rintro rfl
    cases hlist : host.toList with
    | nil => simp [hlist] at hc
    | cons d rest =>
        rw [hlist] at hc
        exact h.first (by rw [hlist]; exact hc)
  have hbracket : ('[' :: (host.toList ++ [']'])).dropWhile (· == '[') = host.toList ++ [']'] :=
    (List.dropWhile_cons_of_pos (by decide)).trans hfirst
  rw [bareHost, hbracket, dropEndWhile_concat (by decide)]
  exact dropEndWhile_eq_self fun c hc => beq_eq_false_iff_ne.mpr fun heq => h.last (heq ▸ hc)

/-! ## Endpoints -/

/-- A spelling of a port: its digits, with zeros and a `+` in front. -/
def PortText (port : UInt16) (cs : List Char) : Prop :=
  ∃ zeros, cs = List.replicate zeros '0' ++ Decimal.digits port.toNat ∨
    cs = '+' :: (List.replicate zeros '0' ++ Decimal.digits port.toNat)

theorem natural?_iff_portText {port : UInt16} {cs : List Char} :
    Decimal.natural? 65536 cs = some port.toNat ↔ PortText port cs := by
  rw [Decimal.natural?_eq_some_iff, PortText]
  exact and_iff_right port.toNat_lt

theorem portText_digits (port : UInt16) : PortText port (Decimal.digits port.toNat) :=
  ⟨0, Or.inl rfl⟩

theorem PortText.no_colon {port : UInt16} {cs : List Char} (h : PortText port cs) : ':' ∉ cs := by
  have hdigits (zeros : Nat) : ':' ∉ List.replicate zeros '0' ++ Decimal.digits port.toNat := by
    intro hmem
    rcases List.mem_append.mp hmem with h | h
    · exact absurd (List.mem_replicate.mp h).2 (by decide)
    · exact absurd (Decimal.isDigit_of_mem_digits h) (by decide)
  obtain ⟨zeros, rfl | rfl⟩ := h
  · exact hdigits zeros
  · intro hmem
    rcases List.mem_cons.mp hmem with h | h
    · exact absurd h (by decide)
    · exact hdigits zeros h

/-- **The endpoints that are accepted**: anything, a colon and a spelling of a port that is not
zero. -/
theorem splitEndpoint_eq_ok_iff {endpoint host : String} {port : UInt16} :
    splitEndpoint endpoint = .ok (host, port) ↔ port ≠ 0 ∧ ∃ front spelling,
      endpoint.toList = front ++ ':' :: spelling ∧ PortText port spelling ∧ host = hostOf front := by
  constructor
  · intro h
    unfold splitEndpoint at h
    split at h
    · cases h
    · next front spelling hcut =>
        split at h
        · cases h
        · next n hn =>
            obtain ⟨rfl, rfl⟩ := Prod.mk.inj (Except.ok.inj h)
            obtain ⟨hread, hzero⟩ := Option.filter_eq_some_iff.mp hn
            have hlt : n < 65536 := (Decimal.natural?_eq_some_iff.mp hread).1
            have hsame : (UInt16.ofNat n).toNat = n := UInt16.toNat_ofNat_of_lt' hlt
            refine ⟨fun hport => ?_, front, spelling, ?_, ?_, rfl⟩
            · rw [hport] at hsame
              exact absurd hsame.symm (by simpa using hzero)
            · exact (Socket.cutLastColon_eq_some_iff.mp hcut).1
            · rwa [← natural?_iff_portText, hsame]
  · rintro ⟨hport, front, spelling, hendpoint, hspelling, rfl⟩
    have hcut := Socket.cutLastColon_eq_some_iff.mpr ⟨hendpoint, hspelling.no_colon⟩
    have hread := natural?_iff_portText.mpr hspelling
    have hzero : port.toNat ≠ 0 := fun h => hport (UInt16.toNat_inj.mp h)
    have hkept : (some port.toNat).filter (· ≠ 0) = some port.toNat := by simp [hzero]
    simp only [splitEndpoint, hcut, hread]
    rw [hkept]
    simp only [UInt16.ofNat_toNat]
    rfl

theorem splitEndpoint_targetText {host : String} {port : UInt16} (hhost : Bare host)
    (hport : port ≠ 0) : splitEndpoint (targetText host port) = .ok (host, port) := by
  rw [splitEndpoint_eq_ok_iff]
  refine ⟨hport, ?_⟩
  unfold targetText
  dsimp only
  split
  · refine ⟨'[' :: (host.toList ++ [']']), Decimal.digits port.toNat, ?_, portText_digits port,
      (hostOf_bracketed hhost).symm⟩
    simp
  · refine ⟨host.toList, Decimal.digits port.toNat, ?_, portText_digits port,
      (hostOf_toList hhost).symm⟩
    simp

theorem explicitEndpoint_eq {p : Profile} {host : String} {port : UInt16}
    (h : splitEndpoint p.serverEndpoint = .ok (host, port)) :
    p.explicitEndpoint = .ok (targetText host port) := by
  simp only [explicitEndpoint, h]
  rfl

/-- **Endpoints that have been made explicit are stable.** Whatever stands in front of the last
colon, brackets in any number and order with it, an endpoint with a spelling of a port is accepted.
The host that it names is bare, and the explicit endpoint names the same host and port and is its
own explicit endpoint. -/
theorem explicit_endpoint_stable :
    (∀ (front spelling : List Char) (port : UInt16), port ≠ 0 → PortText port spelling →
      splitEndpoint (String.ofList (front ++ ':' :: spelling)) = .ok (hostOf front, port)) ∧
    ∀ (p : Profile) (host : String) (port : UInt16),
      splitEndpoint p.serverEndpoint = .ok (host, port) →
        host ≠ "" ∧ host.toList.head? ≠ some '[' ∧ host.toList.getLast? ≠ some ']' ∧
        1 ≤ port.toNat ∧ port.toNat ≤ 65535 ∧
        ∃ target, p.explicitEndpoint = .ok target ∧
          splitEndpoint target = .ok (host, port) ∧
          Profile.explicitEndpoint { p with serverEndpoint := target } = .ok target ∧
          Profile.serverHost { p with serverEndpoint := target } = .ok host := by
  constructor
  · intro front spelling port hport hspelling
    exact splitEndpoint_eq_ok_iff.mpr
      ⟨hport, front, spelling, String.toList_ofList, hspelling, rfl⟩
  · intro p host port h
    obtain ⟨hport, front, spelling, -, -, rfl⟩ := splitEndpoint_eq_ok_iff.mp h
    have hhost := bare_hostOf front
    have hagain := splitEndpoint_targetText hhost hport
    have hpos : port.toNat ≠ 0 := fun hzero => hport (UInt16.toNat_inj.mp hzero)
    have hlt := port.toNat_lt
    have hname : serverHost { p with serverEndpoint := targetText (hostOf front) port } =
        .ok (hostOf front) := by
      simp only [serverHost, hagain]
      rfl
    exact ⟨hhost.ne_empty, hhost.first, hhost.last, by omega, by omega,
      targetText (hostOf front) port, explicitEndpoint_eq h, hagain, explicitEndpoint_eq hagain,
      hname⟩

/-- An address of version 6 with a superfluous bracket, and a port with a sign and zeros. -/
theorem explicit_endpoint_stable_of_bracketed :
    let p : Profile :=
      { clientPrivateKey := "", clientPublicKey := "", serverPublicKey := "",
        serverEndpoint := "[[fe80::1%2]:+00051820", assignedAddress := "",
        serverTunnelAddress := defaultTunnelAddress,
        registeredAt := ⟨⟨2024, 5, 1⟩, ⟨12, 0, 0, 0⟩, by decide, by decide⟩ }
    (PortText 51820 "+00051820".toList ∧
      splitEndpoint (String.ofList ("[[fe80::1%2]".toList ++ ':' :: "+00051820".toList)) =
        .ok (hostOf "[[fe80::1%2]".toList, 51820)) ∧
      splitEndpoint p.serverEndpoint = .ok ("fe80::1%2", 51820) ∧
        ∃ target, p.explicitEndpoint = .ok target ∧
          splitEndpoint target = .ok ("fe80::1%2", 51820) ∧
          Profile.explicitEndpoint { p with serverEndpoint := target } = .ok target := by
  intro p
  have hspelling : PortText 51820 "+00051820".toList := ⟨3, Or.inr (by decide)⟩
  have hsplit : splitEndpoint p.serverEndpoint = .ok ("fe80::1%2", 51820) :=
    splitEndpoint_eq_ok_iff.mpr ⟨by decide, "[[fe80::1%2]".toList, "+00051820".toList, by decide,
      hspelling, by decide⟩
  obtain ⟨haccepted, hstable⟩ := explicit_endpoint_stable
  obtain ⟨-, -, -, -, -, target, hexplicit, hagain, hsame, -⟩ := hstable p _ _ hsplit
  exact ⟨⟨hspelling, haccepted _ _ 51820 (by decide) hspelling⟩, hsplit, target, hexplicit, hagain,
    hsame⟩

/-- An address of version 6 without brackets, and a port alone. -/
example : hostOf "2001:db8::1".toList = "2001:db8::1" ∧ hostOf [] = "127.0.0.1" := by decide

end Profile
end OverlayVpn
