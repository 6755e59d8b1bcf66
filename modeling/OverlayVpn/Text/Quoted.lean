import OverlayVpn.Text.Printable

set_option autoImplicit false

/-! # Quoted text

How a text is shown inside a message: between double quotes, with a backslash before quotes and
backslashes, a letter for the common controls, and the code point in braces for every character
that would not show by itself. -/

namespace OverlayVpn.Text

/-- A number in hexadecimal, with lower-case digits. -/
def hexDigits (n : Nat) : List Char := Nat.toDigits 16 n

/-- A character inside quotes. -/
def quoteChar (c : Char) : List Char :=
  if c = '\x00' then ['\\', '0']
  else if c = '\t' then ['\\', 't']
  else if c = '\n' then ['\\', 'n']
  else if c = '\r' then ['\\', 'r']
  else if c = '"' then ['\\', '"']
  else if c = '\\' then ['\\', '\\']
  else if extendsGrapheme c || ! isPrintable c then
    ['\\', 'u', '\x7b'] ++ hexDigits c.toNat ++ ['\x7d']
  else [c]

/-- The text between double quotes. -/
def quoted (s : String) : String :=
  String.ofList ('"' :: s.toList.flatMap quoteChar ++ ['"'])

end OverlayVpn.Text
