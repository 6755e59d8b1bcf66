set_option autoImplicit false

/-! # Errors of the operating system -/

namespace OverlayVpn

/-- What the operating system refuses, or what is wrong with the data it gives. -/
inductive OsError where
  | noEntry
  | denied
  | fileExists
  | notDirectory
  | isDirectory
  | noSpace
  /-- The device failed. -/
  | failedDevice
  | refusedConnection
  /-- A name for the system holds a character that ends names. -/
  | nulByte
  /-- Text was asked for where there is none. -/
  | notText
  /-- Text was asked for where there is none; `detail` says where. -/
  | faultyText (detail : String)
  deriving DecidableEq, Repr

namespace OsError

/-- What the operating system says of an error. -/
def message : OsError → String
  | noEntry => "No such file or directory (os error 2)"
  | failedDevice => "Input/output error (os error 5)"
  | denied => "Permission denied (os error 13)"
  | fileExists => "File exists (os error 17)"
  | notDirectory => "Not a directory (os error 20)"
  | isDirectory => "Is a directory (os error 21)"
  | noSpace => "No space left on device (os error 28)"
  | refusedConnection => "Connection refused (os error 111)"
  | nulByte => "nul byte found in provided data"
  | notText => "stream did not contain valid UTF-8"
  | faultyText detail => detail

end OsError

end OverlayVpn
