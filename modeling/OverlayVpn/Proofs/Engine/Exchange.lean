import Mathlib.Algebra.Group.Int.Defs
import Mathlib.Data.List.TakeWhile
import OverlayVpn.Engine.Launch
import OverlayVpn.Proofs.Text.Blank
import OverlayVpn.Proofs.Text.Decimal
import OverlayVpn.Proofs.Text.Utf8
import OverlayVpn.Rehearsal.Machine

set_option autoImplicit false

/-! # Replies are framed

A reply is some lines and the line that tells its outcome. It is read up to that line
(`readReply_replyBytes`): the lines before it are the result, those without a character but blanks
left out, and what comes after it is not looked at. A reply that ends before its outcome is told is
never taken for a success, wherever it is cut off: not within a line, whose first characters cannot
tell an outcome if the line does not (`trailer?_front`), not within the outcome, whose first digits
are not those of zero, and not within a character, which then is none. -/

namespace OverlayVpn.Engine

open Text

/-! ## Lines of bytes -/

theorem byteLines_of_not_mem {line : List UInt8} (h : 10 ∉ line) (hne : line ≠ []) :
    byteLines line = [line] := by
  induction line with
  | nil => exact absurd rfl hne
  | cons b line ih =>
      have hb : (b == 10) = false := beq_eq_false_iff_ne.mpr fun heq => h (by simp [heq])
      have hline : 10 ∉ line := fun hmem => h (List.mem_cons_of_mem b hmem)
      cases line with
      | nil => simp [byteLines, hb]
      | cons b' line => rw [byteLines, ih hline (by simp), hb]

/-- The first line feed ends the first line. -/
theorem byteLines_append {line : List UInt8} (h : 10 ∉ line) (rest : List UInt8) :
    byteLines (line ++ 10 :: rest) = (line ++ [10]) :: byteLines rest := by
  induction line with
  | nil => simp [byteLines]
  | cons b line ih =>
      have hb : (b == 10) = false := beq_eq_false_iff_ne.mpr fun heq => h (by simp [heq])
      have hline : 10 ∉ line := fun hmem => h (List.mem_cons_of_mem b hmem)
      rw [List.cons_append, byteLines, ih hline, hb]
      rfl

/-- A text without line breaks has no line feed among its bytes. -/
theorem lineFeed_not_mem_encode {s : String} (h : '\n' ∉ s.toList) : 10 ∉ Utf8.encode s := by
  intro hmem
  obtain ⟨c, hc, hb⟩ := List.mem_flatMap.mp hmem
  have hnat : c.toNat = 10 := by
    rcases Utf8.toNat_of_mem_encodeChar hb with heq | hlarge
    · exact heq.symm
    · exact absurd hlarge (by decide)
  have hchar : c = '\n' := Char.ext (UInt32.toNat_inj.mp hnat)
  exact h (hchar ▸ hc)

/-! ## Telling an outcome -/

/-- What stands before the code in the line that tells an outcome. -/
def outcomeMark : List Char := "errno=".toList

/-- A line tells an outcome. -/
def TellsOutcome (line : String) : Prop := outcomeMark <+: trimmed line.toList

instance (line : String) : Decidable (TellsOutcome line) :=
  inferInstanceAs (Decidable (outcomeMark <+: trimmed line.toList))

/-- The outcome that a code tells. -/
def outcomeOf (code : List Char) : Except ReplyFault Unit :=
  match Decimal.integer? Decimal.signedBound code with
  | some 0 => .ok ()
  | some code => .error (.errno code)
  | none => .error (.malformed ("bad errno value " ++ quoted (String.ofList code)))

theorem trailer?_eq (line : String) :
    trailer? line = (after? outcomeMark (trimmed line.toList)).map outcomeOf := rfl

theorem trailer?_eq_none {line : String} (h : ¬TellsOutcome line) : trailer? line = none := by
  rw [trailer?_eq, after?_eq_none_iff.mpr h, Option.map_none]

theorem toList_lineFeed (line : String) : (line ++ "\n").toList = line.toList ++ ['\n'] := by simp

/-- The line feed at the end of a line does not count. -/
theorem trailer?_lineFeed (line : String) : trailer? (line ++ "\n") = trailer? line := by
  rw [trailer?_eq, trailer?_eq, toList_lineFeed, trimmed_concat rfl]

theorem trimEnd_lineFeed (line : String) : trimEnd (line ++ "\n") = trimEnd line := by
  rw [trimEnd, trimEnd, toList_lineFeed, dropEndWhile_concat rfl]

/-- **The first characters of a line that tells no outcome tell none.** -/
theorem trailer?_front {line : String} (h : ¬TellsOutcome line) {front : List Char}
    (hfront : front <+: line.toList) : trailer? (String.ofList front) = none := by
  refine trailer?_eq_none fun htells => h ?_
  rw [TellsOutcome, String.toList_ofList] at htells
  have hmark : outcomeMark = "errno".toList ++ ['='] := rfl
  rw [TellsOutcome, hmark]
  rw [hmark] at htells
  exact start_trimmed rfl hfront htells

/-- The line that tells an outcome. -/
def outcomeLine (code : Int) : String := "errno=" ++ Decimal.renderInt code

/-- What an outcome comes to. -/
def outcome (code : Int) : Except ReplyFault Unit := if code = 0 then .ok () else .error (.errno code)

theorem toList_outcomeLine (code : Int) :
    (outcomeLine code).toList = outcomeMark ++ (Decimal.renderInt code).toList :=
  String.toList_append

theorem isBlank_of_mem_renderInt {n : Int} {c : Char} (h : c ∈ (Decimal.renderInt n).toList) :
    isBlank c = false := by
  rw [Decimal.toList_renderInt] at h
  split at h
  · rcases List.mem_cons.mp h with rfl | hdigit
    · rfl
    · exact isBlank_of_isDigit (Decimal.isDigit_of_mem_digits hdigit)
  · exact isBlank_of_isDigit (Decimal.isDigit_of_mem_digits h)

theorem isBlank_of_mem_outcomeLine {code : Int} {c : Char} (h : c ∈ (outcomeLine code).toList) :
    isBlank c = false := by
  rw [toList_outcomeLine, List.mem_append] at h
  rcases h with hmark | hcode
  · have hall : outcomeMark.all (fun c => !isBlank c) = true := rfl
    simpa using List.all_eq_true.mp hall c hmark
  · exact isBlank_of_mem_renderInt hcode

/-- **A code is told and understood**, if it fits in 64 bits with its sign. -/
theorem trailer?_outcomeLine {code : Int} (hlow : -(Decimal.signedBound : Int) ≤ code)
    (hhigh : code < Decimal.signedBound) : trailer? (outcomeLine code) = some (outcome code) := by
  have hsolid : trimmed (outcomeLine code).toList = outcomeMark ++ (Decimal.renderInt code).toList := by
    rw [trimmed_of_forall fun _ => isBlank_of_mem_outcomeLine, toList_outcomeLine]
  rw [trailer?_eq, hsolid, after?_eq_some_iff.mpr rfl, Option.map_some, outcomeOf,
    Decimal.integer?_renderInt hlow hhigh, outcome]
  split
  · next heq => rw [if_pos (Option.some.inj heq)]
  · next hne heq =>
      obtain rfl := Option.some.inj heq
      rw [if_neg hne]
  · next heq => cases heq

/-- **An outcome that is cut off is not a success.** -/
theorem trailer?_outcome_front {code : Int} {front : List Char}
    (h : front <+: (outcomeLine code).toList) (hmissing : front ≠ (outcomeLine code).toList) :
    trailer? (String.ofList front) ≠ some (.ok ()) := by
  have hsolid : trimmed front = front :=
    trimmed_of_forall fun c hc => isBlank_of_mem_outcomeLine (h.subset hc)
  rw [trailer?_eq, String.toList_ofList, hsolid]
  cases hafter : after? outcomeMark front with
  | none => simp
  | some rest =>
      -- the mark is there, so it is digits that are missing
      obtain rfl := after?_eq_some_iff.mp hafter
      rw [toList_outcomeLine] at h hmissing
      have hfront : rest <+: (Decimal.renderInt code).toList := (List.prefix_append_right_inj _).mp h
      have hcut : rest ≠ (Decimal.renderInt code).toList := fun heq => hmissing (by rw [heq])
      have hnot : Decimal.integer? Decimal.signedBound rest ≠ some 0 :=
        Decimal.integer?_front_ne_zero hfront hcut
      rw [Option.map_some, outcomeOf]
      split
      · next heq => exact absurd heq hnot
      · simp
      · simp

/-! ## Whole replies -/

/-- The bytes of lines, each with its line feed. -/
def lineBytes (lines : List String) : List UInt8 :=
  lines.flatMap fun line => Utf8.encode line ++ [10]

/-- The bytes of a reply up to the end of the text that tells its outcome. -/
def replyBytes (lines : List String) (code : Int) : List UInt8 :=
  lineBytes lines ++ Utf8.encode (outcomeLine code)

/-- The lines that are not blank, without the blanks at their ends. -/
def keptLines (lines : List String) : List String := (lines.filter (! blank ·)).map trimEnd

/-- What a reply says. -/
def answer (lines : List String) (code : Int) : Except EngineFault (List String) :=
  if code = 0 then .ok (keptLines lines) else .error (.reply (.errno code))

/-- A line of a reply in front of the one that tells the outcome. -/
def PlainLine (line : String) : Prop := '\n' ∉ line.toList ∧ ¬TellsOutcome line

instance (line : String) : Decidable (PlainLine line) :=
  inferInstanceAs (Decidable (_ ∧ _))

/-- A text is empty without the blanks at its end exactly when it is blank. -/
theorem isEmpty_trimEnd (s : String) : (trimEnd s).isEmpty = blank s := by
  obtain ⟨dropped, hsplit, hdropped⟩ := dropEndWhile_append isBlank s.toList
  rw [trimEnd, blank, Bool.eq_iff_iff, String.isEmpty_iff, String.ofList_eq_empty_iff,
    List.all_eq_true]
  constructor
  · intro hnil c hc
    rw [hsplit, hnil, List.nil_append] at hc
    exact hdropped c hc
  · intro hall
    have hnone : s.toList.reverse.dropWhile isBlank = [] :=
      List.dropWhile_eq_nil_iff.mpr fun c hc => hall c (List.mem_reverse.mp hc)
    rw [dropEndWhile, hnone, List.reverse_nil]

theorem encode_lineFeed (line : String) :
    Utf8.encode line ++ [10] = Utf8.encode (line ++ "\n") := by
  simp [Utf8.encode, Utf8.encodeChars, Utf8.encodeChar]

theorem keptLines_cons (line : String) (lines : List String) :
    keptLines (line :: lines) =
      if blank line then keptLines lines else trimEnd line :: keptLines lines := by
  unfold keptLines
  rw [List.filter_cons]
  cases blank line <;> rfl

/-- A plain line is kept, unless it is blank, and reading goes on. -/
theorem collect_plainLine {line : String} (h : PlainLine line) (rest : List (List UInt8)) :
    collect ((Utf8.encode line ++ [10]) :: rest) =
      if blank line then collect rest else (collect rest).map (trimEnd line :: ·) := by
  have hread : Utf8.read (Utf8.encode line ++ [10]) = .ok (line ++ "\n") := by
    rw [encode_lineFeed, Utf8.read_encode]
  have hplain : trailer? (line ++ "\n") = none := by
    rw [trailer?_lineFeed, trailer?_eq_none h.2]
  simp only [collect, hread, hplain, trimEnd_lineFeed, isEmpty_trimEnd]

theorem byteLines_plainLine {line : String} (h : PlainLine line) (rest : List UInt8) :
    byteLines (Utf8.encode line ++ [10] ++ rest) =
      (Utf8.encode line ++ [10]) :: byteLines rest := by
  rw [List.append_assoc, List.singleton_append]
  exact byteLines_append (lineFeed_not_mem_encode h.1) rest

/-- **Plain lines are kept, and what follows them is read.** -/
theorem collect_lineBytes {lines : List String} (h : ∀ line ∈ lines, PlainLine line)
    (rest : List UInt8) :
    collect (byteLines (lineBytes lines ++ rest)) =
      (collect (byteLines rest)).map (keptLines lines ++ ·) := by
  induction lines with
  | nil => cases hrest : collect (byteLines rest) <;> simp [lineBytes, keptLines, Except.map, hrest]
  | cons line lines ih =>
      have hline : PlainLine line := h line List.mem_cons_self
      have ih := ih fun l hl => h l (List.mem_cons_of_mem line hl)
      have hbytes : lineBytes (line :: lines) ++ rest =
          Utf8.encode line ++ [10] ++ (lineBytes lines ++ rest) := by
        rw [lineBytes, List.flatMap_cons, List.append_assoc]
        rfl
      rw [hbytes, byteLines_plainLine hline, collect_plainLine hline, ih, keptLines_cons]
      cases blank line <;> cases collect (byteLines rest) <;> rfl

/-- The line that tells the outcome ends the reading. -/
theorem collect_outcome {bytes : List UInt8} {text : String} {code : Int}
    (hread : Utf8.read bytes = .ok text) (htells : trailer? text = some (outcome code))
    (rest : List (List UInt8)) : collect (bytes :: rest) = answer [] code := by
  simp only [collect, hread, htells, outcome, answer, keptLines]
  split
  · next heq => split at heq <;> simp_all
  · next heq => split at heq <;> simp_all
  · next heq => cases heq

theorem lineFeed_not_mem_outcomeLine (code : Int) : '\n' ∉ (outcomeLine code).toList := by
  intro hmem
  cases isBlank_of_mem_outcomeLine hmem

theorem answer_nil_map (lines : List String) (code : Int) :
    (answer [] code).map (keptLines lines ++ ·) = answer lines code := by
  unfold answer
  split
  · simp [keptLines, Except.map]
  · rfl

section

variable {lines : List String} {code : Int} (hlines : ∀ line ∈ lines, PlainLine line)
  (hlow : -(Decimal.signedBound : Int) ≤ code) (hhigh : code < Decimal.signedBound)

include hlines hlow hhigh

/-- **A reply is read up to its outcome**, whatever follows. -/
theorem readReply_replyBytes (rest : List UInt8) :
    readReply (replyBytes lines code ++ 10 :: rest) = answer lines code := by
  have hsplit : replyBytes lines code ++ 10 :: rest =
      lineBytes lines ++ (Utf8.encode (outcomeLine code) ++ 10 :: rest) := by
    rw [replyBytes, List.append_assoc]
  have hread : Utf8.read (Utf8.encode (outcomeLine code) ++ [10]) =
      .ok (outcomeLine code ++ "\n") := by
    rw [encode_lineFeed, Utf8.read_encode]
  have htells : trailer? (outcomeLine code ++ "\n") = some (outcome code) := by
    rw [trailer?_lineFeed, trailer?_outcomeLine hlow hhigh]
  rw [readReply, hsplit, collect_lineBytes hlines,
    byteLines_append (lineFeed_not_mem_encode (lineFeed_not_mem_outcomeLine code)),
    collect_outcome hread htells, answer_nil_map]

/-- The outcome counts without a line feed after it. -/
theorem readReply_replyBytes_unended : readReply (replyBytes lines code) = answer lines code := by
  have hne : Utf8.encode (outcomeLine code) ≠ [] := by
    simp [Utf8.encode, toList_outcomeLine, outcomeMark, Utf8.encodeChars, Utf8.encodeChar]
  have hread : Utf8.read (Utf8.encode (outcomeLine code)) = .ok (outcomeLine code) :=
    Utf8.read_encode _
  have htells : trailer? (outcomeLine code) = some (outcome code) :=
    trailer?_outcomeLine hlow hhigh
  rw [readReply, replyBytes, collect_lineBytes hlines,
    byteLines_of_not_mem (lineFeed_not_mem_encode (lineFeed_not_mem_outcomeLine code)) hne,
    collect_outcome hread htells, answer_nil_map]

end

/-! ## Replies that are cut off -/

/-- Bytes that are no text, or a text that tells no success, are a failure at the end of a reply. -/
theorem collect_last {bytes : List UInt8} (h : (∃ fault, Utf8.read bytes = .error fault) ∨
    ∃ text, Utf8.read bytes = .ok text ∧ trailer? text ≠ some (.ok ())) :
    ∃ fault, collect [bytes] = .error fault := by
  rcases h with ⟨fault, hfault⟩ | ⟨text, htext, hnot⟩
  · exact ⟨_, by rw [collect, hfault]⟩
  · simp only [collect, htext]
    split
    · next heq => exact absurd heq hnot
    · exact ⟨_, rfl⟩
    · split
      · exact ⟨_, rfl⟩
      · exact ⟨_, rfl⟩

/-- A reply that ends within a line which, as far as it goes, tells no success is a failure. -/
theorem readReply_take {line : String} (hfeed : '\n' ∉ line.toList) {k : Nat}
    (h : ∀ front, front <+: line.toList →
      (Utf8.encode line).take k = Utf8.encode (String.ofList front) →
        trailer? (String.ofList front) ≠ some (.ok ())) :
    ∃ fault, readReply ((Utf8.encode line).take k) = .error fault := by
  by_cases hnil : (Utf8.encode line).take k = []
  · exact ⟨_, by rw [hnil]; rfl⟩
  · have hfree : 10 ∉ (Utf8.encode line).take k := fun hmem =>
      lineFeed_not_mem_encode hfeed (List.mem_of_mem_take hmem)
    rw [readReply, byteLines_of_not_mem hfree hnil]
    refine collect_last ?_
    rcases Utf8.take_encode line k with ⟨front, hfront, hbytes⟩ | hfault
    · exact Or.inr ⟨_, by rw [hbytes, Utf8.read_encode], h front hfront hbytes⟩
    · exact Or.inl hfault

/-- **A reply that is cut off before its outcome is told is a failure.** -/
theorem readReply_cutOff {lines : List String} {code : Int}
    (hlines : ∀ line ∈ lines, PlainLine line) {k : Nat} (hk : k < (replyBytes lines code).length) :
    ∃ fault, readReply ((replyBytes lines code).take k) = .error fault := by
  induction lines generalizing k with
  | nil =>
      have hbytes : replyBytes [] code = Utf8.encode (outcomeLine code) := rfl
      rw [hbytes] at hk ⊢
      refine readReply_take (lineFeed_not_mem_outcomeLine code) fun front hfront hcut => ?_
      refine trailer?_outcome_front hfront fun hall => ?_
      -- all characters have all bytes
      rw [hall, String.ofList_toList] at hcut
      have hlength := congrArg List.length hcut
      rw [List.length_take] at hlength
      omega
  | cons line lines ih =>
      have hline : PlainLine line := hlines line List.mem_cons_self
      have hbytes : replyBytes (line :: lines) code =
          Utf8.encode line ++ [10] ++ replyBytes lines code := by
        simp [replyBytes, lineBytes]
      rw [hbytes] at hk ⊢
      rcases Nat.lt_or_ge (Utf8.encode line).length k with hbeyond | hwithin
      · have hlength : (Utf8.encode line ++ [10]).length ≤ k := by simp; omega
        obtain ⟨fault, hfault⟩ := ih (fun l hl => hlines l (List.mem_cons_of_mem line hl))
          (k := k - (Utf8.encode line ++ [10]).length) (by rw [List.length_append] at hk; omega)
        refine ⟨fault, ?_⟩
        rw [readReply] at hfault
        rw [List.take_append, List.take_of_length_le hlength, readReply, byteLines_plainLine hline,
          collect_plainLine hline, hfault]
        split <;> rfl
      · rw [List.append_assoc, List.take_append_of_le_length hwithin]
        refine readReply_take hline.1 fun front hfront _ => ?_
        rw [trailer?_front hline.2 hfront]
        simp

/-! ## Asking an engine -/

section

variable {ω : Type} {sys : System ω} {device : EngineProcess} {request : String} {w : ω}

/-- What an engine sends is read as a reply. -/
theorem ask_eq {bytes : List UInt8} (h : (sys.exchange device.socket request w).1 = .ok bytes) :
    (EngineProcess.ask sys device request w).1 = readReply bytes := by
  unfold EngineProcess.ask
  split
  · next heq =>
      rw [heq] at h
      cases h
  · next heq =>
      rw [heq] at h
      rw [Except.ok.inj h]

/-- **Replies are framed.** An engine sends lines, none of which has a line break or tells an
outcome, then the line that tells a code, a blank line and anything else. If the code is zero the
request gives exactly the lines that are not blank, in order and without the blanks at their ends;
otherwise it fails with the code; and what comes after the code does not matter. If the connection
ends before the code is complete, wherever that is, the request fails. If it ends later the code
counts. -/
theorem replies_framed {lines : List String}
    (hlines : ∀ line ∈ lines, '\n' ∉ line.toList ∧ ¬TellsOutcome line) {code : Int}
    (hlow : -(2 : Int) ^ 63 ≤ code) (hhigh : code < (2 : Int) ^ 63) (rest : List UInt8) :
    let told := lines.flatMap (fun line => Utf8.encode line ++ [10]) ++
      Utf8.encode ("errno=" ++ Decimal.renderInt code)
    let reply := told ++ [10, 10] ++ rest
    let kept := (lines.filter (! blank ·)).map trimEnd
    let answer := if code = 0 then .ok kept else .error (.reply (.errno code))
    ((sys.exchange device.socket request w).1 = .ok reply →
      (EngineProcess.ask sys device request w).1 = answer) ∧
    ∀ k, (sys.exchange device.socket request w).1 = .ok (reply.take k) →
      if k < told.length then ∃ fault, (EngineProcess.ask sys device request w).1 = .error fault
      else (EngineProcess.ask sys device request w).1 = answer := by
  intro told reply kept result
  have htold : told = replyBytes lines code := rfl
  have hresult : result = answer lines code := rfl
  have hreply : reply = told ++ 10 :: 10 :: rest := by simp [reply]
  have hbound : (Decimal.signedBound : Int) = 2 ^ 63 := by decide
  have hwhole : ∀ more, readReply (told ++ 10 :: more) = result := fun more =>
    readReply_replyBytes hlines (by rw [hbound]; exact hlow) (by rw [hbound]; exact hhigh) more
  refine ⟨fun hsent => ?_, fun k hsent => ?_⟩
  · rw [ask_eq hsent, hreply, hwhole]
  · rw [ask_eq hsent, hreply]
    split
    · next hcut =>
        rw [List.take_append_of_le_length (Nat.le_of_lt hcut)]
        exact readReply_cutOff hlines hcut
    · next hnot =>
        rw [List.take_append, List.take_of_length_le (Nat.le_of_not_lt hnot)]
        -- the connection ends with the code, or after the line feed
        cases k - told.length with
        | zero =>
            rw [List.take_zero, List.append_nil]
            exact readReply_replyBytes_unended hlines (by rw [hbound]; exact hlow)
              (by rw [hbound]; exact hhigh)
        | succ j => exact hwhole _

end

/-- An engine that is asked twice for its state answers the first time in full, with something after
the blank line, and closes the second connection within the last character of a line. -/
theorem replies_framed_from_machine :
    let lines := ["private_key=00", "\t", " listen_port=51820 \r", "label=é"]
    let reply := lines.flatMap (fun line => Utf8.encode line ++ [10]) ++
      Utf8.encode ("errno=" ++ Decimal.renderInt 0) ++ [10, 10] ++ Utf8.encode "errno=5"
    let role : EngineRole :=
      { command := "engine", conduct := .serves, socketDir := .ofText "/run"
        replies := [some reply, some (reply.take 45)] }
    let m : Machine :=
      { host :=
          { disk := { nodes := [(["run"], .directory 0o755), (["run", "wg0.sock"], .file [] 0o600)] }
            clock := .still ⟨⟨2024, 5, 1⟩, ⟨12, 0, 0, 0⟩, by decide, by decide⟩ }
        engine := some role
        processes := [{ id := 1, args := ["wg0"], state := .works, isEngine := true }] }
    let device : EngineProcess := ⟨"wg0", .ofText "/run/wg0.sock", 1⟩
    let first := EngineProcess.ask Machine.system device getRequest m
    let second := EngineProcess.ask Machine.system device getRequest first.2
    first.1 = .ok ["private_key=00", " listen_port=51820", "label=é"] ∧
      ∃ fault, second.1 = .error fault := by
  intro lines reply role m device first second
  have hlines : ∀ line ∈ lines, '\n' ∉ line.toList ∧ ¬TellsOutcome line := by decide
  have hfirst : (Machine.system.exchange device.socket getRequest m).1 = .ok reply := by
    decide +kernel
  have hsecond : (Machine.system.exchange device.socket getRequest first.2).1 =
      .ok (reply.take 45) := by decide +kernel
  have hkept : (lines.filter (! blank ·)).map trimEnd =
      ["private_key=00", " listen_port=51820", "label=é"] := by decide +kernel
  obtain ⟨hall, -⟩ := @replies_framed Machine Machine.system device getRequest m lines hlines 0
    (by decide) (by decide) (Utf8.encode "errno=5")
  obtain ⟨-, hcut⟩ := @replies_framed Machine Machine.system device getRequest first.2 lines hlines 0
    (by decide) (by decide) (Utf8.encode "errno=5")
  refine ⟨?_, ?_⟩
  · rw [← hkept]
    exact hall hfirst
  · have hfailed := hcut 45 hsecond
    rw [if_pos (by decide +kernel)] at hfailed
    exact hfailed

end OverlayVpn.Engine
