import OverlayVpn.Key.Base64
import OverlayVpn.Key.Curve
import OverlayVpn.Text.Blank
import OverlayVpn.Text.Quoted
import OverlayVpn.Text.Utf8

set_option autoImplicit false

/-! # Tunnel keys

A key is 32 bytes. It is written in base64 wherever people and files hold it, and as 64 hexadecimal
digits towards the engine. A private key is never shown in a message. -/

namespace OverlayVpn

/-- A tunnel key, private or public. -/
structure Key where
  /-- The bytes. -/
  bytes : List UInt8
  length_eq : bytes.length = 32 := by simp
  deriving DecidableEq

namespace Key

/-- How many bytes a key has. -/
def size : Nat := 32

/-- Why a text is no key. -/
inductive Fault where
  /-- The text is not base64. -/
  | encoding (fault : Base64.Fault)
  /-- The text stands for `actual` bytes. -/
  | length (actual : Nat)
  deriving DecidableEq, Repr

/-- What is said of a fault. -/
def Fault.message : Fault → String
  | .encoding fault => s!"key is not valid base64: {fault.message}"
  | .length actual => s!"key must decode to {toString size} bytes, got {toString actual}"

/-- The key that a text stands for; blanks around it do not count. -/
def read (text : String) : Except Fault Key :=
  match Base64.decode (Text.Utf8.encode (Text.trim text)) with
  | .error fault => .error (.encoding fault)
  | .ok bytes => if h : bytes.length = 32 then .ok ⟨bytes, h⟩ else .error (.length bytes.length)

/-- Whether a text stands for a key. -/
def check (text : String) : Except Fault Unit := (read text).map fun _ => ()

/-- The key in base64. -/
def text (key : Key) : String := Base64.encode key.bytes

/-- The digit of four bits. -/
def hexDigit (n : Nat) : Char := if n < 10 then Char.ofNat (48 + n) else Char.ofNat (87 + n)

/-- The hexadecimal digits of a byte string, two a byte, in lower case. -/
def hexOf (bytes : List UInt8) : List Char :=
  bytes.flatMap fun b => [hexDigit (b.toNat / 16), hexDigit (b.toNat % 16)]

/-- The key in hexadecimal. -/
def hex (key : Key) : String := String.ofList (hexOf key.bytes)

/-- What is shown of a key in hexadecimal: private keys pass through that form too. -/
def hexShown (_ : Key) : String := "HexKey([REDACTED])"

/-- The public key of a private key. -/
def publicKey (key : Key) : Key := ⟨Curve.publicOf key.bytes, Curve.length_toBytes 32 _⟩

/-- The key whose bytes are the lowest 32 of a number. -/
def ofNat (n : Nat) : Key := ⟨Curve.toBytes 32 n, Curve.length_toBytes 32 n⟩

end Key

/-- A private key and its public key, in base64. -/
structure KeyPair where
  privateKey : String
  publicKey : String
  deriving DecidableEq

namespace KeyPair

/-- The pair of a private key. -/
def ofPrivate (key : Key) : KeyPair := ⟨key.text, key.publicKey.text⟩

/-- What is shown of a pair. -/
def shown (pair : KeyPair) : String :=
  "KeyPair \x7b public_key: " ++ Text.quoted pair.publicKey ++
    ", private_key: \"[REDACTED]\" \x7d"

end KeyPair

end OverlayVpn
