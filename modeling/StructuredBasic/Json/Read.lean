import StructuredBasic.Json

/-!
# Reading serialized values

The reader takes characters and gives a value with the characters that are left. Numbers keep the
text that they are written with.
-/

set_option autoImplicit false

namespace StructuredBasic.Json

def skipSpace (cs : List Char) : List Char :=
  cs.dropWhile fun c => c == ' ' || c == '\t' || c == '\n' || c == '\r'

/-! ## Strings -/

/-- The value of a hexadecimal digit. -/
def hexValue? (c : Char) : Option Nat :=
  if c.isDigit then some (c.toNat - '0'.toNat)
  else if decide ('a' ≤ c) && decide (c ≤ 'f') then some (c.toNat - 'a'.toNat + 10)
  else if decide ('A' ≤ c) && decide (c ≤ 'F') then some (c.toNat - 'A'.toNat + 10)
  else none

/-- The number that hexadecimal digits stand for. -/
def hexNumber? (cs : List Char) : Option Nat :=
  cs.foldlM (fun n c => (hexValue? c).map fun d => 16 * n + d) 0

/-- The character of a short escape. -/
def unescape? : Char → Option Char
  | '"' => some '"'
  | '\\' => some '\\'
  | '/' => some '/'
  | 'b' => some '\x08'
  | 'f' => some '\x0c'
  | 'n' => some '\n'
  | 'r' => some '\r'
  | 't' => some '\t'
  | _ => none

def isHighSurrogate (n : Nat) : Bool := decide (0xd800 ≤ n) && decide (n < 0xdc00)

def isLowSurrogate (n : Nat) : Bool := decide (0xdc00 ≤ n) && decide (n < 0xe000)

/-- The character that two surrogates stand for. -/
def fromSurrogates (high low : Nat) : Char :=
  Char.ofNat (0x10000 + (high - 0xd800) * 0x400 + (low - 0xdc00))

/-- The rest of a string behind its opening quote; `read` holds what came before, last first, and
`high` a surrogate that waits for the second one. -/
def stringBody (high : Option Nat) (read : List Char) : List Char → Option (String × List Char)
  | [] => none
  | '\\' :: 'u' :: a :: b :: c :: d :: rest =>
    match hexNumber? [a, b, c, d], high with
    | none, _ => none
    | some n, none =>
      if isHighSurrogate n then stringBody (some n) read rest
      else if isLowSurrogate n then none
      else stringBody none (Char.ofNat n :: read) rest
    | some n, some m =>
      if isLowSurrogate n then stringBody none (fromSurrogates m n :: read) rest else none
  | '\\' :: c :: rest =>
    match unescape? c, high with
    | some x, none => stringBody none (x :: read) rest
    | _, _ => none
  | c :: rest =>
    if high.isSome then none
    else if c = '"' then some (String.ofList read.reverse, rest)
    else if c.toNat < 32 then none
    else stringBody none (c :: read) rest

/-! ## Values -/

def isNumberChar (c : Char) : Bool :=
  c.isDigit || c == '-' || c == '+' || c == '.' || c == 'e' || c == 'E'

/-- What follows a word. -/
def afterWord? : List Char → List Char → Option (List Char)
  | [], rest => some rest
  | c :: word, d :: rest => if c = d then afterWord? word rest else none
  | _ :: _, [] => none

mutual

def value : Nat → List Char → Option (Json × List Char)
  | 0, _ => none
  | fuel + 1, cs =>
    match skipSpace cs with
    | '{' :: rest =>
      match skipSpace rest with
      | '}' :: rest => some (.object [], rest)
      | rest => fields fuel [] rest
    | '[' :: rest =>
      match skipSpace rest with
      | ']' :: rest => some (.array [], rest)
      | rest => elements fuel [] rest
    | '"' :: rest => (stringBody none [] rest).map fun (text, rest) => (.string text, rest)
    | 't' :: rest => (afterWord? ['r', 'u', 'e'] rest).map fun rest => (.bool true, rest)
    | 'f' :: rest => (afterWord? ['a', 'l', 's', 'e'] rest).map fun rest => (.bool false, rest)
    | 'n' :: rest => (afterWord? ['u', 'l', 'l'] rest).map fun rest => (.null, rest)
    | rest =>
      match rest.takeWhile isNumberChar with
      | [] => none
      | text => some (.number (String.ofList text), rest.dropWhile isNumberChar)

/-- The rest of a list; `read` holds the elements before, last first. -/
def elements : Nat → List Json → List Char → Option (Json × List Char)
  | 0, _, _ => none
  | fuel + 1, read, cs => do
    let (element, rest) ← value fuel cs
    match skipSpace rest with
    | ',' :: rest => elements fuel (element :: read) rest
    | ']' :: rest => some (.array (element :: read).reverse, rest)
    | _ => none

/-- The rest of an object; `read` holds the fields before, last first. -/
def fields : Nat → List (String × Json) → List Char → Option (Json × List Char)
  | 0, _, _ => none
  | fuel + 1, read, cs =>
    match skipSpace cs with
    | '"' :: rest => do
      let (key, rest) ← stringBody none [] rest
      match skipSpace rest with
      | ':' :: rest => do
        let (content, rest) ← value fuel rest
        match skipSpace rest with
        | ',' :: rest => fields fuel ((key, content) :: read) rest
        | '}' :: rest => some (.object ((key, content) :: read).reverse, rest)
        | _ => none
      | _ => none
    | _ => none

end

/-- The value that a text stands for, if it is the whole text. -/
def parse (source : String) : Option Json := do
  let cs := source.toList
  let (result, rest) ← value (2 * cs.length + 2) cs
  if (skipSpace rest).isEmpty then some result else none

end StructuredBasic.Json
