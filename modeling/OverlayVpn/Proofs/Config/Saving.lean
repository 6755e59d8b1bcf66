import OverlayVpn.Config.Load
import OverlayVpn.Proofs.Config.File
import OverlayVpn.Proofs.Disk.Replace
import OverlayVpn.Proofs.Text.Utf8

set_option autoImplicit false

/-! # A saved configuration is loaded again

Where the environment has no variables that concern a configuration, loading is reading the file
and checking what it holds (`load_eq_ok_iff`). A configuration that was loaded can be saved
wherever a file can be written, also over the file that it came from, and loading it there gives
the same configuration, which is saved as the same bytes (`loaded_survives_saving`). -/

namespace OverlayVpn

open Text

/-! ## Plain files -/

namespace Disk

/-- What was written is read. -/
theorem read_write {d d' : Disk} {p : Path} {contents : List UInt8}
    (h : d.write p contents = .ok d') : d'.read p = .ok contents := by
  unfold write at h
  cases hopen : d.truncated 0o644 p with
  | error e => simp [hopen, bind, Except.bind] at h
  | ok opened =>
      simp only [hopen, bind, Except.bind] at h
      exact read_appended (read_truncated hopen) h

/-- A file that can be read can be written over. -/
theorem write_of_read {d : Disk} {p : Path} {old : List UInt8} (h : d.read p = .ok old)
    (contents : List UInt8) : ∃ d', d.write p contents = .ok d' := by
  obtain ⟨place, mode, hresolve, hnode⟩ := read_eq_ok_iff.mp h
  have hopen : d.truncated 0o644 p = .ok (d.put place (.file [] mode)) := by
    simp only [truncated, hresolve, hnode, bind, Except.bind]
    rfl
  obtain ⟨place', mode', hresolve', hnode'⟩ := read_eq_ok_iff.mp (read_truncated hopen)
  have hfind := find_eq_ok_iff.mpr ⟨hresolve', hnode'⟩
  refine ⟨(d.put place (.file [] mode)).put place' (.file ([] ++ contents) mode'), ?_⟩
  simp only [write, hopen, appended, hfind, bind, Except.bind]
  rfl

theorem pathExists_of_read {d : Disk} {p : Path} {contents : List UInt8}
    (h : d.read p = .ok contents) : d.pathExists p = true := by
  obtain ⟨place, mode, hresolve, hnode⟩ := read_eq_ok_iff.mp h
  rw [pathExists, find_eq_ok_iff.mpr ⟨hresolve, hnode⟩]
  rfl

end Disk

/-! ## No variables -/

/-- That no variable has a name that starts with `VEIL_`. -/
def Environment.Quiet (env : Environment) : Prop :=
  ∀ binding ∈ env.bindings, ¬"VEIL_".toList <+: binding.1.toList

theorem Environment.Quiet.get? {env : Environment} (h : env.Quiet) {name : String}
    (hname : "VEIL_".toList <+: name.toList) : env.get? name = none := by
  refine List.lookup_eq_none_iff.mpr fun binding hbinding => bne_iff_ne.mpr ?_
  rintro rfl
  exact h binding hbinding hname

namespace Config

/-- Without variables nothing is overridden. -/
theorem override_of_quiet {env : Environment} (h : env.Quiet) (c : Config) : c.override env = c := by
  have hfilled {name : String} (hname : "VEIL_".toList <+: name.toList) :
      env.filled? name = none := by
    rw [Environment.filled?, h.get? hname]
    rfl
  simp (disch := decide +kernel) only [override, overrideServer, overridePool, overrideEngine,
    overrideClient, hfilled, h.get?, Option.bind_none, Option.map_none, Option.getD_none]
  rfl

theorem finish_of_quiet {env : Environment} (h : env.Quiet) (c : Config) :
    c.finish env = c.validate.map fun _ => c := by
  rw [finish, override_of_quiet h]
  cases c.validate <;> rfl

/-- Without variables a configuration is loaded from a file that holds it, if it makes sense. -/
theorem load_eq_ok_iff {disk : Disk} {env : Environment} (hquiet : env.Quiet) {path : Path}
    {c : Config} :
    load disk env path = .ok c ↔
      ∃ bytes text, disk.read path = .ok bytes ∧ Utf8.read? bytes = some text ∧
        ofText? text = some c ∧ c.validate = .ok () := by
  constructor
  · intro h
    unfold load at h
    split at h
    · cases h
    split at h
    · cases h
    · next bytes hread =>
        split at h
        · cases h
        · next text htext =>
            split at h
            · cases h
            · next c' hc' =>
                rw [finish_of_quiet hquiet] at h
                cases hvalid : c'.validate with
                | error fault =>
                    rw [hvalid] at h
                    cases h
                | ok u =>
                    rw [hvalid] at h
                    obtain rfl := Except.ok.inj h
                    exact ⟨bytes, text, hread, htext, hc', hvalid⟩
  · rintro ⟨bytes, text, hread, htext, hc, hvalid⟩
    have hexists := Disk.pathExists_of_read hread
    simp only [load, hexists, hread, htext, hc, finish_of_quiet hquiet, hvalid]
    rfl

/-- The text of a configuration is what its bytes hold. -/
theorem read?_encode_text (c : Config) : Utf8.read? (Utf8.encode c.text) = some c.text := by
  rw [Utf8.read?, Utf8.read_encode]
  rfl

/-- What can be written is saved where a file can be written. -/
theorem save_eq_ok_iff {c : Config} (h : c.writable = true) {disk saved : Disk} {path : Path} :
    c.save disk path = .ok saved ↔ disk.write path (Utf8.encode c.text) = .ok saved := by
  rw [save, h]
  cases disk.write path (Utf8.encode c.text) <;> simp

theorem save_eq_error_iff {c : Config} (h : c.writable = true) {disk : Disk} {path : Path}
    {fault : ConfigFault} :
    c.save disk path = .error fault ↔
      ∃ error, disk.write path (Utf8.encode c.text) = .error error ∧ fault = .io error := by
  rw [save, h]
  cases disk.write path (Utf8.encode c.text) <;> simp [eq_comm]

/-- **A configuration that was loaded survives being saved.** It can be saved over the file that it
came from, and elsewhere it is not saved only where no file can be written. Wherever it is saved
it is loaded again as it was, and saved again as the same bytes. -/
theorem loaded_survives_saving {disk : Disk} {env : Environment} {path : Path} {c : Config}
    (hquiet : env.Quiet) (hload : load disk env path = .ok c) :
    (∃ saved, c.save disk path = .ok saved) ∧
    ∀ (elsewhere : Disk) (target : Path),
      (∀ fault, c.save elsewhere target = .error fault →
        ∃ error, elsewhere.write target (Utf8.encode c.text) = .error error ∧ fault = .io error) ∧
      ∀ saved, c.save elsewhere target = .ok saved → ∀ env' : Environment, env'.Quiet →
        ∃ c' bytes, load saved env' target = .ok c' ∧ c' = c ∧ saved.read target = .ok bytes ∧
          ∃ again, c'.save saved target = .ok again ∧ again.read target = .ok bytes := by
  obtain ⟨old, text, hread, htext, hc, hvalid⟩ := (load_eq_ok_iff hquiet).mp hload
  have hwritable := writable_of_ofText? hc
  refine ⟨?_, fun elsewhere target => ⟨fun fault => (save_eq_error_iff hwritable).mp,
    fun saved hsaved env' hquiet' => ?_⟩⟩
  · obtain ⟨saved, hwrite⟩ := Disk.write_of_read hread (Utf8.encode c.text)
    exact ⟨saved, (save_eq_ok_iff hwritable).mpr hwrite⟩
  · have hbytes := Disk.read_write ((save_eq_ok_iff hwritable).mp hsaved)
    have hloaded := (load_eq_ok_iff hquiet').mpr
      ⟨_, c.text, hbytes, read?_encode_text c, ofText?_text hwritable, hvalid⟩
    obtain ⟨again, hagain⟩ := Disk.write_of_read hbytes (Utf8.encode c.text)
    exact ⟨c, _, hloaded, rfl, hbytes, again, (save_eq_ok_iff hwritable).mpr hagain,
      Disk.read_write hagain⟩

/-- A file with some of the keys, whose texts hold quotes, backslashes, line ends and control
characters, is loaded, saved over and loaded again. -/
theorem loaded_survives_saving_of_odd_texts :
    let text := "log_level = \"\\u0007 \\\\ \\\"\\\"\\\"\"\n[engine]\n" ++
      "args = [\"\"\"\na\r\nb\\u007F\"\"\", ''' 'c' \\ ''', \"\"]\n[client]\nsession_file = ''\n"
    let path := Path.ofText "/veil.toml"
    let disk : Disk := { nodes := [(["veil.toml"], .file (Utf8.encode text) 0o600)] }
    let c : Config := {
      logLevel := "\x07 \\ \"\"\""
      engine := { args := ["a\nb\x7f", " 'c' \\ ", ""] }
      client := { sessionFile := some "" } }
    load disk {} path = .ok c ∧
      ∃ saved, c.save disk path = .ok saved ∧ load saved {} path = .ok c := by
  intro text path disk c
  have hload : load disk {} path = .ok c := by decide +kernel
  have hquiet : Environment.Quiet {} := List.forall_mem_nil _
  obtain ⟨⟨saved, hsaved⟩, hsurvives⟩ := loaded_survives_saving hquiet hload
  obtain ⟨c', bytes, hloaded, rfl, -⟩ := (hsurvives disk path).2 saved hsaved {} hquiet
  exact ⟨hload, saved, hsaved, hloaded⟩

end Config

end OverlayVpn
