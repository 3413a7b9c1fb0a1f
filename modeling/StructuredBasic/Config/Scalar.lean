import StructuredBasic.Config.Calendar
import StructuredBasic.Config.Table
import StructuredBasic.Word

/-!
# Words of a configuration document

Blanks, comments, quoted texts, keys and scalar values in the notation of TOML. A reader takes
characters and gives what it read with the characters that are left.
-/

set_option autoImplicit false

namespace StructuredBasic.Config

/-- Reads a part of the text. -/
abbrev Reader (α : Type) := List Char → Option (α × List Char)

/-! ## Blanks and comments -/

def isBlank (c : Char) : Bool := c == ' ' || c == '\t'

/-- Characters that may stand in a text: no control character but the tab. -/
def isPlain (c : Char) : Bool :=
  c == '\t' || (decide (0x20 ≤ c.toNat) && c.toNat != 0x7f)

def skipBlanks (cs : List Char) : List Char := cs.dropWhile isBlank

/-- The end of a line. -/
def newline? : List Char → Option (List Char)
  | '\n' :: rest => some rest
  | '\r' :: '\n' :: rest => some rest
  | _ => none

/-- A comment, if there is one, up to the end of its line. -/
def skipComment : List Char → List Char
  | '#' :: rest => rest.dropWhile isPlain
  | cs => cs

/-- Blanks and a comment up to the end of the line or of the text. -/
def lineEnd? (cs : List Char) : Option (List Char) :=
  match skipComment (skipBlanks cs) with
  | [] => some []
  | rest => newline? rest

/-- Blanks, comments and line ends between the elements of an array. -/
def filler (inComment : Bool) : List Char → Option (List Char)
  | [] => if inComment then none else some []
  | '\n' :: rest => filler false rest
  | '\r' :: '\n' :: rest => filler false rest
  | c :: rest =>
    if inComment then (if isPlain c then filler true rest else none)
    else if isBlank c then filler false rest
    else if c == '#' then filler true rest
    else some (c :: rest)

/-! ## Texts in quotes -/

/-- The value of a hexadecimal digit. -/
def hexDigit? (c : Char) : Option Nat :=
  if c.isDigit then some (c.toNat - '0'.toNat)
  else if decide ('a' ≤ c) && decide (c ≤ 'f') then some (c.toNat - 'a'.toNat + 10)
  else if decide ('A' ≤ c) && decide (c ≤ 'F') then some (c.toNat - 'A'.toNat + 10)
  else none

/-- The character with a code, if there is one. -/
def character? (code : Nat) : Option Char :=
  if code < 0xd800 ∨ (0xdfff < code ∧ code < 0x110000) then some (Char.ofNat code) else none

/-- The character of a short escape. -/
def escaped? : Char → Option Char
  | 'b' => some '\x08'
  | 't' => some '\t'
  | 'n' => some '\n'
  | 'f' => some '\x0c'
  | 'r' => some '\r'
  | '"' => some '"'
  | '\\' => some '\\'
  | _ => none

/-- Where a reader of escapes stands. -/
inductive Pending where
  | none
  /-- Behind a backslash. -/
  | escape
  /-- Inside a code with this many digits to come. -/
  | code (left value : Nat)
  /-- Behind a backslash at the end of a line, past the line end or still before it. -/
  | fold (past : Bool)

/-- How many digits the code of a long escape has. -/
def codeLength? : Char → Option Nat
  | 'u' => some 4
  | 'U' => some 8
  | _ => none

/-- Puts a character in front of a text that is read. -/
def consTo (c : Char) : Option (List Char × List Char) → Option (List Char × List Char) :=
  Option.map fun (text, rest) => (c :: text, rest)

/-- One more digit of a code: either the code goes on, or its character follows. -/
def codeStep (left value : Nat) (c : Char) : Option (Sum Pending Char) :=
  match hexDigit? c with
  | some digit =>
    let value := 16 * value + digit
    if left ≤ 1 then (character? value).map Sum.inr else some (.inl (.code (left - 1) value))
  | none => Option.none

/-- The rest of a text in double quotes. -/
def basicBody : Pending → List Char → Option (List Char × List Char)
  | _, [] => none
  | .none, c :: rest =>
    if c == '"' then some ([], rest)
    else if c == '\\' then basicBody .escape rest
    else if isPlain c then consTo c (basicBody .none rest)
    else none
  | .escape, c :: rest =>
    match escaped? c, codeLength? c with
    | some x, _ => consTo x (basicBody .none rest)
    | none, some left => basicBody (.code left 0) rest
    | none, none => none
  | .code left value, c :: rest =>
    match codeStep left value c with
    | some (.inl pending) => basicBody pending rest
    | some (.inr x) => consTo x (basicBody .none rest)
    | none => none
  | .fold _, _ :: _ => none

/-- The rest of a text in single quotes, where nothing is escaped. -/
def literalBody : Reader (List Char) := fun cs =>
  match cs.dropWhile fun c => c != '\'' && isPlain c with
  | '\'' :: rest => some (cs.takeWhile fun c => c != '\'' && isPlain c, rest)
  | _ => none

/-- The end of a text in triple quotes. Up to two quotes before the closing ones belong to it. -/
def tripleEnd? (quote : Char) : List Char → Option (List Char × List Char)
  | a :: b :: c :: rest =>
    if a == quote && b == quote && c == quote then
      match rest with
      | d :: e :: more =>
        if d == quote && e == quote then some ([quote, quote], more)
        else if d == quote then some ([quote], e :: more)
        else some ([], rest)
      | [d] => if d == quote then some ([quote], []) else some ([], rest)
      | [] => some ([], [])
    else none
  | _ => none

/-- The rest of a text in triple double quotes. A line ends in a single line feed, and a backslash
at the end of a line removes all blanks and line ends behind it. -/
def longBasicBody (pending : Pending) (cs : List Char) : Option (List Char × List Char) :=
  match pending, cs with
  | _, [] => none
  | .none, '\r' :: '\n' :: rest => consTo '\n' (longBasicBody .none rest)
  | .none, c :: rest =>
    match tripleEnd? '"' (c :: rest) with
    | some result => some result
    | none =>
      if c == '\\' then longBasicBody .escape rest
      else if isPlain c || c == '\n' then consTo c (longBasicBody .none rest)
      else none
  | .escape, '\r' :: '\n' :: rest => longBasicBody (.fold true) rest
  | .escape, c :: rest =>
    if c == '\n' then longBasicBody (.fold true) rest
    else if isBlank c then longBasicBody (.fold false) rest
    else
      match escaped? c, codeLength? c with
      | some x, _ => consTo x (longBasicBody .none rest)
      | none, some left => longBasicBody (.code left 0) rest
      | none, none => none
  | .code left value, c :: rest =>
    match codeStep left value c with
    | some (.inl pending) => longBasicBody pending rest
    | some (.inr x) => consTo x (longBasicBody .none rest)
    | none => none
  | .fold _, '\r' :: '\n' :: rest => longBasicBody (.fold true) rest
  | .fold past, c :: rest =>
    if c == '\n' then longBasicBody (.fold true) rest
    else if isBlank c then longBasicBody (.fold past) rest
    else if past then longBasicBody .none (c :: rest)
    else none
termination_by (cs.length, match pending with | .fold _ => 1 | _ => 0)

/-- The rest of a text in triple single quotes. -/
def longLiteralBody : List Char → Option (List Char × List Char)
  | [] => none
  | '\r' :: '\n' :: rest => consTo '\n' (longLiteralBody rest)
  | c :: rest =>
    match tripleEnd? '\'' (c :: rest) with
    | some result => some result
    | none => if isPlain c || c == '\n' then consTo c (longLiteralBody rest) else none

/-- A text in triple quotes starts behind the line end that may follow them. -/
def skipNewline (cs : List Char) : List Char := (newline? cs).getD cs

def asText : Option (List Char × List Char) → Option (String × List Char) :=
  Option.map fun (text, rest) => (String.ofList text, rest)

/-- A text in quotes that stays on its line. -/
def shortText : Reader String
  | '"' :: rest => asText (basicBody .none rest)
  | '\'' :: rest => asText (literalBody rest)
  | _ => none

/-- A text in quotes. -/
def text : Reader String
  | '"' :: '"' :: '"' :: rest => asText (longBasicBody .none (skipNewline rest))
  | '\'' :: '\'' :: '\'' :: rest => asText (longLiteralBody (skipNewline rest))
  | cs => shortText cs

/-! ## Keys -/

def isBare (c : Char) : Bool := c.isAlphanum || c == '_' || c == '-'

/-- One part of a key. -/
def simpleKey : Reader String := fun cs =>
  match cs.takeWhile isBare with
  | [] => shortText cs
  | word => some (String.ofList word, cs.dropWhile isBare)

/-- Parts of a key with dots between them, at most as many as the number says. -/
def keyParts : Nat → Reader (List String)
  | 0, _ => none
  | room + 1, cs => do
    let (part, rest) ← simpleKey cs
    match skipBlanks rest with
    | '.' :: more => do
      let (parts, rest) ← keyParts room (skipBlanks more)
      return (part :: parts, rest)
    | rest => return ([part], rest)

/-- How deep keys and values may nest. -/
def maxNesting : Nat := 79

/-- A key, plain or with dots. -/
def key : Reader (List String) := keyParts maxNesting

/-! ## Numbers and words -/

/-- Digits of a number: single underscores may stand between digits. -/
def digits? (isDigit : Char → Bool) : List Char → Option (List Char)
  | [] => none
  | [c] => if isDigit c then some [c] else none
  | c :: '_' :: rest => if isDigit c then (digits? isDigit rest).map (c :: ·) else none
  | c :: rest => if isDigit c then (digits? isDigit rest).map (c :: ·) else none

/-- The number that digits stand for. -/
def ofDigits (base : Nat) (ds : List Char) : Nat :=
  ds.foldl (fun n c => base * n + (hexDigit? c).getD 0) 0

/-- Digits without a sign in a base, with `leading` deciding whether a zero may come first. -/
def natural? (base : Nat) (leading : Bool) (cs : List Char) : Option Nat := do
  let ds ← digits? (fun c => ((hexDigit? c).map fun d => decide (d < base)).getD false) cs
  match ds with
  | '0' :: _ :: _ => if leading then some (ofDigits base ds) else none
  | _ => some (ofDigits base ds)

/-- An integer as written, in one of four bases. Only a decimal may have a sign. -/
def integer? : List Char → Option Int
  | '0' :: 'x' :: cs => (natural? 16 true cs).map Int.ofNat
  | '0' :: 'o' :: cs => (natural? 8 true cs).map Int.ofNat
  | '0' :: 'b' :: cs => (natural? 2 true cs).map Int.ofNat
  | '+' :: cs => (natural? 10 false cs).map Int.ofNat
  | '-' :: cs => (natural? 10 false cs).map fun n => -(n : Int)
  | cs => (natural? 10 false cs).map Int.ofNat

/-- A number without its sign. -/
def unsigned : List Char → List Char
  | '+' :: rest => rest
  | '-' :: rest => rest
  | rest => rest

def isDigitOrMark (c : Char) : Bool := c.isDigit || c == '_'

/-- An exponent, or nothing. -/
def isExponent : List Char → Bool
  | [] => true
  | c :: rest => (c == 'e' || c == 'E') && (natural? 10 true (unsigned rest)).isSome

/-- A point with digits behind it and an optional exponent, or an exponent alone. -/
def isFraction (cs : List Char) : Bool :=
  match cs.dropWhile isDigitOrMark with
  | [] => false
  | '.' :: rest =>
    (natural? 10 false (cs.takeWhile isDigitOrMark)).isSome
      && (natural? 10 true (rest.takeWhile isDigitOrMark)).isSome
      && isExponent (rest.dropWhile isDigitOrMark)
  | rest => (natural? 10 false (cs.takeWhile isDigitOrMark)).isSome && isExponent rest

/-- Whether a fraction is larger than every floating-point value. Nothing is too small. -/
def isTooLarge : List Char → Bool
  | '-' :: _ => false
  | cs =>
    match Decimal.numeral? (String.ofList ((unsigned cs).filter fun c => c != '_')) with
    | some n => n.isBeyond
    | none => false

/-- Numbers that are not integers: fractions, and words for the values that are not finite. -/
def isFloat (cs : List Char) : Bool :=
  isFraction (unsigned cs) && !isTooLarge cs
    || unsigned cs == "inf".toList || unsigned cs == "nan".toList

/-- Characters of a number, a date or a word. -/
def isWordChar (c : Char) : Bool :=
  c.isAlphanum || c == '+' || c == '-' || c == '_' || c == '.' || c == ':'

/-- The value that a word stands for. -/
def wordValue? (word : List Char) : Option Value :=
  match String.ofList word with
  | "true" => some (.boolean true)
  | "false" => some (.boolean false)
  | written =>
    match integer? word with
    | some n => if (word? n).isSome then some (.integer n) else none
    | none =>
      if isFloat word then some (.float written)
      else if isDateTime word then some (.dateTime written)
      else none

/-- A number, a date or a truth value. A blank may stand between a date and a time. -/
def scalar : Reader Value := fun cs =>
  let word := cs.takeWhile isWordChar
  let rest := cs.dropWhile isWordChar
  match rest with
  | ' ' :: more =>
    let second := more.takeWhile isWordChar
    if hasDateForm word && (second.head?.any Char.isDigit) then
      (wordValue? (word ++ ' ' :: second)).map fun v => (v, more.dropWhile isWordChar)
    else (wordValue? word).map fun v => (v, rest)
  | _ => (wordValue? word).map fun v => (v, rest)

end StructuredBasic.Config
