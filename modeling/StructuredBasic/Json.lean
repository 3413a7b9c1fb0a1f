/-!
# Serialized values

Values of the interchange format and their indented text: two spaces a level, one element or field
a line, empty lists and objects on one line. A number carries its own text.
-/

set_option autoImplicit false

namespace StructuredBasic

inductive Json where
  | null
  | bool (value : Bool)
  | number (text : String)
  | string (value : String)
  | array (elements : List Json)
  | object (fields : List (String × Json))

namespace Json

/-! ## Strings -/

/-- One hexadecimal digit in lower case. -/
def hexDigit (n : Nat) : Char :=
  if n < 10 then Char.ofNat (48 + n) else Char.ofNat (87 + n)

/-- Quotes, backslashes and controls are escaped; everything else stands as it is. -/
def escapeChar (c : Char) : List Char :=
  if c = '"' then ['\\', '"']
  else if c = '\\' then ['\\', '\\']
  else if c = '\x08' then ['\\', 'b']
  else if c = '\x0c' then ['\\', 'f']
  else if c = '\n' then ['\\', 'n']
  else if c = '\r' then ['\\', 'r']
  else if c = '\t' then ['\\', 't']
  else if c.toNat < 32 then
    ['\\', 'u', '0', '0', hexDigit (c.toNat / 16), hexDigit (c.toNat % 16)]
  else [c]

def quoted (s : String) : String :=
  String.ofList (['"'] ++ s.toList.flatMap escapeChar ++ ['"'])

/-! ## Indented text -/

/-- A line break and the indentation of a depth. -/
def newline (depth : Nat) : String :=
  "\n" ++ String.ofList (List.replicate (2 * depth) ' ')

mutual

def pretty (depth : Nat) : Json → String
  | .null => "null"
  | .bool value => if value then "true" else "false"
  | .number text => text
  | .string value => quoted value
  | .array [] => "[]"
  | .array (element :: rest) =>
    "[" ++ newline (depth + 1) ++ pretty (depth + 1) element ++
      prettyElements (depth + 1) rest ++ newline depth ++ "]"
  | .object [] => "\x7b\x7d"
  | .object ((key, value) :: rest) =>
    "\x7b" ++ newline (depth + 1) ++ quoted key ++ ": " ++ pretty (depth + 1) value ++
      prettyFields (depth + 1) rest ++ newline depth ++ "\x7d"

def prettyElements (depth : Nat) : List Json → String
  | [] => ""
  | element :: rest =>
    "," ++ newline depth ++ pretty depth element ++ prettyElements depth rest

def prettyFields (depth : Nat) : List (String × Json) → String
  | [] => ""
  | (key, value) :: rest =>
    "," ++ newline depth ++ quoted key ++ ": " ++ pretty depth value ++ prettyFields depth rest

end

/-! ## Text on one line -/

mutual

def compact : Json → String
  | .null => "null"
  | .bool value => if value then "true" else "false"
  | .number text => text
  | .string value => quoted value
  | .array [] => "[]"
  | .array (element :: rest) => "[" ++ compact element ++ compactElements rest ++ "]"
  | .object [] => "\x7b\x7d"
  | .object ((key, value) :: rest) =>
    "\x7b" ++ quoted key ++ ":" ++ compact value ++ compactFields rest ++ "\x7d"

def compactElements : List Json → String
  | [] => ""
  | element :: rest => "," ++ compact element ++ compactElements rest

def compactFields : List (String × Json) → String
  | [] => ""
  | (key, value) :: rest => "," ++ quoted key ++ ":" ++ compact value ++ compactFields rest

end

/-! ## Building values -/

/-- A text where there is one, `null` otherwise. -/
def ofOption {α : Type} (encode : α → Json) : Option α → Json
  | some value => encode value
  | none => .null

def ofList {α : Type} (encode : α → Json) (values : List α) : Json :=
  .array (values.map encode)

def ofInt (n : Int) : Json := .number (toString n)

/-- A value under the name of its variant. -/
def tagged (name : String) (content : Json) : Json := .object [(name, content)]

end Json

end StructuredBasic
