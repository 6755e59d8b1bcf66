import OverlayVpn.Client.Route
import OverlayVpn.Proofs.Net.Ipv4
import OverlayVpn.Proofs.Text.Words

set_option autoImplicit false

/-! # How a default route is read

A word of a line is read as a keyword when it is `via` or `dev` and not what another keyword is
followed by (`readsKeyword`). Only the words after keywords count (`Follows`): the line makes no
sense when a `via` is not followed by an address, when there is no `dev`, or when the last one is
followed by nothing (`ofLine_eq_error_iff`). Words that are no keywords are passed over
(`scan_others`), wherever they stand. -/

namespace OverlayVpn

open Text

namespace DefaultRoute

/-! ## Keywords -/

/-- Whether a word may be a keyword. -/
def isKeyword (word : String) : Bool := word == "via" || word == "dev"

/-- Whether the word at a place is read as a keyword: what follows a keyword is not. -/
def readsKeyword (ws : List String) : Nat → Bool
  | 0 => ws[0]?.any isKeyword
  | i + 1 => ws[i + 1]?.any isKeyword && ! readsKeyword ws i

/-- A keyword is read at some place, and `next` is the word that follows it, if any does. -/
def Follows (ws : List String) (keyword : String) (next : Option String) : Prop :=
  ∃ i, readsKeyword ws i = true ∧ ws[i]? = some keyword ∧ ws[i + 1]? = next

theorem not_follows_nil (keyword : String) (next : Option String) : ¬Follows [] keyword next := by
  rintro ⟨i, -, hword, -⟩
  cases hword

theorem readsKeyword_cons_of_other {word : String} (h : isKeyword word = false) (ws : List String)
    (i : Nat) : readsKeyword (word :: ws) (i + 1) = readsKeyword ws i := by
  induction i with
  | zero => simp [readsKeyword, h]
  | succ i ih => rw [readsKeyword, ih, readsKeyword, List.getElem?_cons_succ]

/-- A word that is no keyword changes nothing for the words after it. -/
theorem follows_cons_of_other {word keyword : String} {ws : List String} {next : Option String}
    (h : isKeyword word = false) : Follows (word :: ws) keyword next ↔ Follows ws keyword next := by
  constructor
  · rintro ⟨i, hread, hword, hnext⟩
    cases i with
    | zero => simp [readsKeyword, h] at hread
    | succ i =>
        rw [readsKeyword_cons_of_other h] at hread
        exact ⟨i, hread, hword, hnext⟩
  · rintro ⟨i, hread, hword, hnext⟩
    exact ⟨i + 1, by rw [readsKeyword_cons_of_other h, hread], hword, hnext⟩

theorem readsKeyword_cons_cons {first : String} (h : isKeyword first = true) (second : String)
    (ws : List String) (i : Nat) :
    readsKeyword (first :: second :: ws) (i + 2) = readsKeyword ws i := by
  induction i with
  | zero => simp [readsKeyword, h]
  | succ i ih => rw [readsKeyword, ih, readsKeyword, List.getElem?_cons_succ, List.getElem?_cons_succ]

/-- After a keyword and the word that follows it, reading starts anew. -/
theorem follows_cons_cons {first second keyword : String} {ws : List String} {next : Option String}
    (h : isKeyword first = true) :
    Follows (first :: second :: ws) keyword next ↔
      keyword = first ∧ next = some second ∨ Follows ws keyword next := by
  constructor
  · rintro ⟨i, hread, hword, hnext⟩
    match i with
    | 0 => exact Or.inl ⟨(Option.some.inj hword).symm, hnext.symm⟩
    | 1 => simp [readsKeyword, h] at hread
    | i + 2 =>
        rw [readsKeyword_cons_cons h] at hread
        exact Or.inr ⟨i, hread, hword, hnext⟩
  · rintro (⟨rfl, rfl⟩ | ⟨i, hread, hword, hnext⟩)
    · exact ⟨0, by simp [readsKeyword, h], rfl, rfl⟩
    · exact ⟨i + 2, by rw [readsKeyword_cons_cons h, hread], hword, hnext⟩

theorem follows_single {first keyword : String} {next : Option String}
    (h : isKeyword first = true) : Follows [first] keyword next ↔ keyword = first ∧ next = none := by
  constructor
  · rintro ⟨i, hread, hword, hnext⟩
    cases i with
    | zero => exact ⟨(Option.some.inj hword).symm, hnext.symm⟩
    | succ i => cases hword
  · rintro ⟨rfl, rfl⟩
    exact ⟨0, by simp [readsKeyword, h], rfl, rfl⟩

/-- Words are read one by one, and a keyword together with the word that follows it. -/
theorem readingInduction {motive : List String → Prop} (nil : motive [])
    (other : ∀ word ws, isKeyword word = false → motive ws → motive (word :: ws))
    (single : ∀ keyword, isKeyword keyword = true → motive [keyword])
    (keyword : ∀ keyword next ws, isKeyword keyword = true → motive ws →
      motive (keyword :: next :: ws)) : ∀ ws, motive ws
  | [] => nil
  | [word] => by
    cases h : isKeyword word with
    | true => exact single word h
    | false => exact other word [] h nil
  | word :: next :: ws => by
    cases h : isKeyword word with
    | true => exact keyword word next ws h (readingInduction nil other single keyword ws)
    | false =>
        exact other word (next :: ws) h (readingInduction nil other single keyword (next :: ws))

theorem eq_via_or_dev {word : String} (h : isKeyword word = true) : word = "via" ∨ word = "dev" := by
  simpa [isKeyword] using h

/-! ## Reading the words -/

section Scan

variable {gateway : Option Ipv4} {device : Option String}

theorem scan_via (word : String) (ws : List String) :
    scan gateway device ("via" :: word :: ws) =
      (Ipv4.read? word).bind fun a => scan (some a) device ws := by
  rw [scan, if_pos rfl]
  cases Ipv4.read? word <;> rfl

theorem scan_dev (word : String) (ws : List String) :
    scan gateway device ("dev" :: word :: ws) = scan gateway (some word) ws := by
  rw [scan, if_neg (by decide), if_pos rfl]

theorem scan_cons_of_other {word : String} (h : isKeyword word = false) (ws : List String) :
    scan gateway device (word :: ws) = scan gateway device ws := by
  obtain ⟨hvia, hdev⟩ : word ≠ "via" ∧ word ≠ "dev" := by simpa [isKeyword] using h
  cases ws with
  | nil =>
      unfold scan
      split <;> simp_all
  | cons next ws => rw [scan, if_neg hvia, if_neg hdev]

/-- Words that are no keywords are passed over. -/
theorem scan_others {others : List String} (h : ∀ word ∈ others, isKeyword word = false)
    (ws : List String) : scan gateway device (others ++ ws) = scan gateway device ws := by
  induction others with
  | nil => rfl
  | cons word others ih =>
      obtain ⟨hword, hothers⟩ := List.forall_mem_cons.mp h
      rw [List.cons_append, scan_cons_of_other hword, ih hothers]

/-- **When words tell no gateway as they should**: some `via` is not followed by an address. -/
theorem scan_eq_none_iff {ws : List String} :
    scan gateway device ws = none ↔
      ∃ next, Follows ws "via" next ∧ next.bind Ipv4.read? = none := by
  induction ws using readingInduction generalizing gateway device with
  | nil => simp [scan, not_follows_nil]
  | other word ws hword ih =>
      rw [scan_cons_of_other hword, ih]
      simp only [follows_cons_of_other hword]
  | single keyword hkeyword =>
      simp only [follows_single hkeyword]
      rcases eq_via_or_dev hkeyword with rfl | rfl <;> simp [scan]
  | keyword keyword next ws hkeyword ih =>
      simp only [follows_cons_cons hkeyword]
      rcases eq_via_or_dev hkeyword with rfl | rfl
      · rw [scan_via]
        cases hread : Ipv4.read? next with
        | none => exact iff_of_true rfl ⟨some next, Or.inl ⟨rfl, rfl⟩, hread⟩
        | some a =>
            rw [Option.bind_some, ih]
            refine exists_congr fun word => and_congr_left fun hnone => ?_
            refine (or_iff_right ?_).symm
            rintro ⟨-, rfl⟩
            rw [Option.bind_some, hread] at hnone
            cases hnone
      · rw [scan_dev, ih]
        simp

/-- **When words tell no device**: the last `dev` is followed by nothing, or there is none. -/
theorem device_of_scan {ws : List String} {gateway' : Option Ipv4} {device' : Option String}
    (h : scan gateway device ws = some (gateway', device')) :
    device' = none ↔
      Follows ws "dev" none ∨ device = none ∧ ∀ next, ¬Follows ws "dev" next := by
  induction ws using readingInduction generalizing gateway device with
  | nil =>
      obtain ⟨-, rfl⟩ := Prod.mk.inj (Option.some.inj h)
      simp [not_follows_nil]
  | other word ws hword ih =>
      rw [scan_cons_of_other hword] at h
      simp only [follows_cons_of_other hword, ih h]
  | single keyword hkeyword =>
      simp only [follows_single hkeyword]
      rcases eq_via_or_dev hkeyword with rfl | rfl
      · cases h
      · obtain ⟨-, rfl⟩ := Prod.mk.inj (Option.some.inj h)
        simp
  | keyword keyword next ws hkeyword ih =>
      simp only [follows_cons_cons hkeyword]
      rcases eq_via_or_dev hkeyword with rfl | rfl
      · rw [scan_via] at h
        obtain ⟨a, -, hrest⟩ := Option.bind_eq_some_iff.mp h
        rw [ih hrest]
        simp
      · rw [scan_dev] at h
        rw [ih h]
        -- a device was named, so that nothing but a later `dev` can take it back
        refine or_congr ?_ (iff_of_false ?_ ?_)
        · exact (or_iff_right fun h => Option.some_ne_none next h.2.symm).symm
        · exact fun h => Option.some_ne_none next h.1
        · exact fun h => h.2 (some next) (Or.inl ⟨rfl, rfl⟩)

end Scan

/-! ## Lines -/

/-- Words make no sense: some `via` is not followed by an address, there is no `dev`, or the last
`dev` is followed by nothing. -/
def Garbled (ws : List String) : Prop :=
  (∃ next, Follows ws "via" next ∧ next.bind Ipv4.read? = none) ∨
    (∀ next, ¬Follows ws "dev" next) ∨ Follows ws "dev" none

/-- **A line is refused exactly when its words make no sense.** -/
theorem ofLine_eq_error_iff {line : String} {fault : Fault} :
    ofLine line = .error fault ↔ fault = .garbled line ∧ Garbled (words line) := by
  unfold ofLine
  cases hscan : scan none none (words line) with
  | none =>
      have hgarbled : Garbled (words line) := Or.inl (scan_eq_none_iff.mp hscan)
      rw [Except.error.injEq, eq_comm, and_iff_left hgarbled]
  | some found =>
      obtain ⟨gateway, device⟩ := found
      have hvia : ¬∃ next, Follows (words line) "via" next ∧ next.bind Ipv4.read? = none :=
        fun hbad => Option.some_ne_none _ (hscan.symm.trans (scan_eq_none_iff.mpr hbad))
      have hdev : device = none ↔ Garbled (words line) := by
        rw [device_of_scan hscan, Garbled, or_iff_right hvia, or_comm]
        exact or_congr_left (and_iff_right rfl)
      cases device with
      | none => rw [Except.error.injEq, eq_comm, and_iff_left (hdev.mp rfl)]
      | some device =>
          have hsense := mt hdev.mpr (Option.some_ne_none device)
          exact iff_of_false (fun h => by cases h) fun h => hsense h.2

/-! ## Listings -/

/-- A line tells a default route: without the blanks around it, it starts with `default`. -/
def TellsDefault (line : String) : Prop := "default".toList <+: (trim line).toList

theorem isDefaultLine_trim {line : String} :
    isDefaultLine (trim line) = true ↔ TellsDefault line := by
  rw [isDefaultLine, TellsDefault, Option.isSome_iff_ne_none, ne_eq, after?_eq_none_iff,
    Classical.not_not]

theorem read_eq_missing_iff {listing : String} :
    read listing = .error .missing ↔ ∀ line ∈ lines listing, ¬TellsDefault line := by
  unfold read
  cases hfound : ((lines listing).map trim).find? isDefaultLine with
  | none =>
      rw [List.find?_eq_none, List.forall_mem_map] at hfound
      refine iff_of_true rfl fun line hline htells => ?_
      exact hfound line hline (isDefaultLine_trim.mpr htells)
  | some line =>
      obtain ⟨htold, -⟩ := List.find?_eq_some_iff_append.mp hfound
      obtain ⟨original, hmem, rfl⟩ := List.mem_map.mp (List.mem_of_find?_eq_some hfound)
      refine iff_of_false (fun h => ?_) fun hnone => hnone original hmem (isDefaultLine_trim.mp htold)
      cases (ofLine_eq_error_iff.mp h).1

/-- **What is read is told by the first line that tells a default route.** -/
theorem read_eq_ofLine {listing line : String} {before after : List String}
    (hlines : lines listing = before ++ line :: after) (hbefore : ∀ l ∈ before, ¬TellsDefault l)
    (hline : TellsDefault line) : read listing = ofLine (trim line) := by
  have hfound : ((lines listing).map trim).find? isDefaultLine = some (trim line) := by
    rw [hlines, List.map_append, List.map_cons, List.find?_append, List.find?_eq_none.mpr,
      Option.none_or, List.find?_cons_of_pos (isDefaultLine_trim.mpr hline)]
    rw [List.forall_mem_map]
    exact fun l hl htells => hbefore l hl (isDefaultLine_trim.mp htells)
  rw [read, hfound]

/-! ## Lines as they are written -/

/-- The words that tell a gateway, if there is one. -/
def viaWords (gateway : Option Ipv4) : List String :=
  match gateway with
  | some a => ["via", a.text]
  | none => []

/-- The words of a default route's line: besides the gateway and the device it has other words. -/
inductive Written (gateway : Option Ipv4) (device : String) : List String → Prop
  | viaFirst {front between back : List String}
      (hothers : ∀ word ∈ front ++ between ++ back, word ≠ "via" ∧ word ≠ "dev") :
      Written gateway device
        ("default" :: front ++ viaWords gateway ++ between ++ ["dev", device] ++ back)
  | devFirst {front between back : List String}
      (hothers : ∀ word ∈ front ++ between ++ back, word ≠ "via" ∧ word ≠ "dev") :
      Written gateway device
        ("default" :: front ++ ["dev", device] ++ between ++ viaWords gateway ++ back)

theorem isKeyword_of_ne {word : String} (h : word ≠ "via" ∧ word ≠ "dev") :
    isKeyword word = false := by
  simpa [isKeyword] using h

theorem scan_viaWords (gateway : Option Ipv4) (device : Option String) (ws : List String) :
    scan none device (viaWords gateway ++ ws) = scan gateway device ws := by
  cases gateway with
  | none => rfl
  | some a =>
      have hread : Ipv4.read? a.text = some a := Ipv4.ofChars?_text false a
      show scan none device ("via" :: a.text :: ws) = _
      rw [scan_via, hread, Option.bind_some]

/-- The words of a default route's line tell its gateway and its device. -/
theorem scan_written {gateway : Option Ipv4} {device : String} {ws : List String}
    (h : Written gateway device ws) : scan none none ws = some (gateway, some device) := by
  have hpassed {others : List String} (hothers : ∀ word ∈ others, word ≠ "via" ∧ word ≠ "dev")
      (g : Option Ipv4) (d : Option String) (rest : List String) :
      scan g d (others ++ rest) = scan g d rest :=
    scan_others (fun word hword => isKeyword_of_ne (hothers word hword)) rest
  cases h with
  | @viaFirst front between back hothers =>
      simp only [List.forall_mem_append] at hothers
      obtain ⟨⟨hfront, hbetween⟩, hback⟩ := hothers
      have hend := hpassed hback gateway (some device) []
      rw [List.append_nil] at hend
      simp only [List.cons_append, List.append_assoc, List.nil_append]
      rw [scan_cons_of_other (by decide), hpassed hfront, scan_viaWords, hpassed hbetween, scan_dev,
        hend]
      rfl
  | @devFirst front between back hothers =>
      simp only [List.forall_mem_append] at hothers
      obtain ⟨⟨hfront, hbetween⟩, hback⟩ := hothers
      have hend := hpassed hback gateway (some device) []
      rw [List.append_nil] at hend
      simp only [List.cons_append, List.append_assoc, List.nil_append]
      rw [scan_cons_of_other (by decide), hpassed hfront, scan_dev, hpassed hbetween, scan_viaWords,
        hend]
      rfl

/-- The words of a default route's line start with `default`. -/
theorem Written.exists_cons {gateway : Option Ipv4} {device : String} {ws : List String}
    (h : Written gateway device ws) : ∃ rest, ws = "default" :: rest := by
  cases h <;> exact ⟨_, rfl⟩

/-- **The default route is read off the first line that tells one.** There is none exactly when no
line does, blanks around it aside, and else the answer is what this line tells. A line that is
written with `default`, a gateway and a device in either order, words that are no keywords around
them and any blanks between the words tells this gateway and this device, whatever lines precede it
that tell no default route, and whatever lines follow. The line is refused exactly when a `via` that
is read as a keyword is not followed by an address, no `dev` is read as a keyword, or the last
one is followed by nothing. -/
theorem default_route_read_off_first_line (listing : String) :
    (read listing = .error .missing ↔ ∀ line ∈ lines listing, ¬TellsDefault line) ∧
    ∀ before line after, lines listing = before ++ line :: after →
      (∀ l ∈ before, ¬TellsDefault l) →
      (TellsDefault line → read listing = ofLine (trim line)) ∧
      (∀ gateway device ws, Written gateway device ws → Spaced ws line.toList →
        read listing = .ok { gateway, device }) ∧
      (TellsDefault line →
        (read listing = .error (.garbled (trim line)) ↔ Garbled (words line)) ∧
        (¬Garbled (words line) → ∃ route, read listing = .ok route)) := by
  refine ⟨read_eq_missing_iff, fun before line after hlines hbefore => ⟨?_, ?_, ?_⟩⟩
  · exact read_eq_ofLine hlines hbefore
  · intro gateway device ws hwritten hspaced
    obtain ⟨rest, rfl⟩ := hwritten.exists_cons
    have htells : TellsDefault line := by
      rw [TellsDefault, toList_trim]
      exact start_trimmed_of_spaced hspaced
    rw [read_eq_ofLine hlines hbefore htells, ofLine, words_trim, words_of_spaced hspaced,
      scan_written hwritten]
  · intro htells
    have hgarbled (fault : Fault) :
        read listing = .error fault ↔ fault = .garbled (trim line) ∧ Garbled (words line) := by
      rw [read_eq_ofLine hlines hbefore htells, ofLine_eq_error_iff, words_trim]
    refine ⟨(hgarbled _).trans (and_iff_right rfl), fun hsense => ?_⟩
    cases hread : read listing with
    | ok route => exact ⟨route, rfl⟩
    | error fault => exact absurd ((hgarbled fault).mp hread).2 hsense

/-- A device that is named like a keyword, with the gateway after it, between a line that tells no
default route and one whose last word is `dev`. -/
theorem default_route_read_off_named_via :
    let first := "10.0.0.0/8 dev tun0"
    let line := "  default\tproto static dev via  via 192.168.1.1 metric 5 "
    let last := "default via dev eth0 dev"
    let listing := first ++ "\r\n" ++ line ++ "\n" ++ last
    let gateway := some (Ipv4.ofOctets 192 168 1 1)
    lines listing = [first] ++ line :: [last] ∧ ¬TellsDefault first ∧
      Written gateway "via" (words line) ∧ read listing = .ok { gateway, device := "via" } ∧
      TellsDefault last ∧ Garbled (words last) ∧ read last = .error (.garbled last) := by
  intro first line last listing gateway
  have hlines : lines listing = [first] ++ line :: [last] := by decide +kernel
  have hfirst : ¬TellsDefault first := by
    rw [← isDefaultLine_trim]
    decide
  have hlast : TellsDefault last := isDefaultLine_trim.mp (by decide)
  have hwords : words line =
      "default" :: ["proto", "static"] ++ ["dev", "via"] ++ [] ++ viaWords gateway ++
        ["metric", "5"] := by decide +kernel
  have hwritten : Written gateway "via" (words line) := by
    rw [hwords]
    exact .devFirst (by decide)
  have hgarbled : Garbled (words last) := Or.inr (Or.inr ⟨4, by decide, by decide, by decide⟩)
  have hread := ((default_route_read_off_first_line listing).2 [first] line [last] hlines
    (by simpa using hfirst)).2.1 gateway "via" _ hwritten (spaced_iff.mpr rfl)
  have hone : lines last = [] ++ last :: [] := by decide +kernel
  have htrim : trim last = last := by decide +kernel
  have hrefused := (((default_route_read_off_first_line last).2 [] last [] hone (by simp)).2.2
    hlast).1.mpr hgarbled
  rw [htrim] at hrefused
  exact ⟨hlines, hfirst, hwritten, hread, hlast, hgarbled, hrefused⟩

end DefaultRoute

end OverlayVpn
