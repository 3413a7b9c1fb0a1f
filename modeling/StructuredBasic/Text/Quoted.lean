import StructuredBasic.Text.Printable

/-!
# Quoted literals

The quoted form of a text or a character in printed programs. Inside the quotes, a backslash, the
quote itself and the common controls have short escapes, and characters that do not print or that
extend the character before them are written by code point.
-/

set_option autoImplicit false

namespace StructuredBasic.Text

/-- A lower-case hexadecimal number without leading zeros. -/
def hex (n : Nat) : List Char := Nat.toDigits 16 n

/-- The escaped form of one character between the given quotes. -/
def escapeChar (quote c : Char) : List Char :=
  if c = quote then ['\\', c]
  else if c = '\\' then ['\\', '\\']
  else if c = '\x00' then ['\\', '0']
  else if c = '\t' then ['\\', 't']
  else if c = '\r' then ['\\', 'r']
  else if c = '\n' then ['\\', 'n']
  else if isExtender c || !isPrintable c then ['\\', 'u', '\x7b'] ++ hex c.toNat ++ ['\x7d']
  else [c]

/-- A text between double quotes. -/
def quoted (s : String) : String :=
  String.ofList (['"'] ++ s.toList.flatMap (escapeChar '"') ++ ['"'])

/-- A character between single quotes. -/
def quotedChar (c : Char) : String :=
  String.ofList (['\''] ++ escapeChar '\'' c ++ ['\''])

end StructuredBasic.Text
