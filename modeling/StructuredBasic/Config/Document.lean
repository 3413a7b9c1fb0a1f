import StructuredBasic.Config.Scalar

/-!
# Configuration documents

A document is read line by line into one table: pairs of a key and a value go to the table of the
last header.
-/

set_option autoImplicit false

namespace StructuredBasic.Config

/-! ## Values -/

/-- A key with the tables on the way to it. -/
def splitKey : List String → Option (List String × String)
  | [] => none
  | [key] => some ([], key)
  | step :: rest => (splitKey rest).map fun (path, key) => (step :: path, key)

/-- Adds a pair to a table. -/
def insertPair (entries : Entries) (parts : List String) (value : Value) : Option Entries := do
  let (path, key) ← splitKey parts
  insert entries path key value

/-- The elements of an array up to its closing bracket, each read by `element`. A comma may follow
the last one. There are no more elements than characters. -/
def elements (element : Reader Value) : Nat → Reader (List Value)
  | 0, _ => none
  | fuel + 1, cs => do
    match ← filler false cs with
    | ']' :: rest => return ([], rest)
    | start => do
      let (first, rest) ← element start
      match ← filler false rest with
      | ']' :: rest => return ([first], rest)
      | ',' :: rest => do
        let (others, rest) ← elements element fuel rest
        return (first :: others, rest)
      | _ => none

/-- The pairs of a table in braces up to the closing one, all on one line, each value read by
`element`. -/
def pairs (element : Reader Value) : Nat → Entries → Reader Entries
  | 0, _, _ => none
  | fuel + 1, entries, cs => do
    let (parts, rest) ← key (skipBlanks cs)
    match skipBlanks rest with
    | '=' :: rest => do
      let (v, rest) ← element (skipBlanks rest)
      let entries ← insertPair entries parts v
      match skipBlanks rest with
      | '}' :: rest => return (entries, rest)
      | ',' :: rest => pairs element fuel entries rest
      | _ => none
    | _ => none

/-- A value that holds no others. -/
def atom : Reader Value := fun cs =>
  match cs with
  | '"' :: _ => (text cs).map fun (t, rest) => (.string t, rest)
  | '\'' :: _ => (text cs).map fun (t, rest) => (.string t, rest)
  | _ => scalar cs

/-- A value with at most so many arrays and tables around one another. -/
def valueWithin : Nat → Reader Value
  | 0, cs => atom cs
  | room + 1, cs =>
    match cs with
    | '[' :: rest =>
      (elements (valueWithin room) (rest.length + 1) rest).map fun (vs, rest) => (.array vs, rest)
    | '{' :: rest =>
      match skipBlanks rest with
      | '}' :: rest => some (.table .braces [], rest)
      | rest =>
        (pairs (valueWithin room) (rest.length + 1) [] rest).map fun (entries, rest) =>
          (.table .braces entries, rest)
    | _ => atom cs

def value : Reader Value := valueWithin maxNesting

/-! ## Lines -/

/-- The document so far and the table that takes the next pair. -/
structure Progress where
  root : Entries
  path : List String

/-- A header in brackets. -/
def header (progress : Progress) (cs : List Char) : Option (Progress × List Char) := do
  let (parts, rest) ← key (skipBlanks cs)
  let (path, last) ← splitKey parts
  match skipBlanks rest with
  | ']' :: rest => do
    let root ← descend progress.root (openTable last) path
    return (⟨root, parts⟩, rest)
  | _ => none

/-- A header in double brackets. -/
def elementHeader (progress : Progress) (cs : List Char) : Option (Progress × List Char) := do
  let (parts, rest) ← key (skipBlanks cs)
  let (path, last) ← splitKey parts
  match skipBlanks rest with
  | ']' :: ']' :: rest => do
    let root ← descend progress.root (openElement last) path
    return (⟨root, parts⟩, rest)
  | _ => none

/-- A key and its value. -/
def pair (progress : Progress) (cs : List Char) : Option (Progress × List Char) := do
  let (parts, rest) ← key cs
  match skipBlanks rest with
  | '=' :: rest => do
    let (v, rest) ← value (skipBlanks rest)
    let root ← descend progress.root (fun entries => insertPair entries parts v) progress.path
    return (⟨root, progress.path⟩, rest)
  | _ => none

/-- What a line says, if it says anything. -/
def line (progress : Progress) (cs : List Char) : Option (Progress × List Char) :=
  match skipBlanks cs with
  | [] => some (progress, [])
  | '#' :: rest => some (progress, '#' :: rest)
  | '\n' :: rest => some (progress, '\n' :: rest)
  | '\r' :: rest => some (progress, '\r' :: rest)
  | '[' :: '[' :: rest => elementHeader progress rest
  | '[' :: rest => header progress rest
  | rest => pair progress rest

/-- The lines of a document. There are no more of them than characters. -/
def lines : Nat → Progress → List Char → Option Entries
  | 0, progress, _ => some progress.root
  | fuel + 1, progress, cs => do
    match ← line progress cs with
    | (progress, rest) =>
      match ← lineEnd? rest with
      | [] => return progress.root
      | rest => lines fuel progress rest

/-- The table of a document, if its text is well formed. -/
def parse (source : String) : Option Entries :=
  let cs := match source.toList with
    | '\ufeff' :: rest => rest
    | cs => cs
  lines (cs.length + 1) ⟨[], []⟩ cs

end StructuredBasic.Config
