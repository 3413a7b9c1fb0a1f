/-!
# Tables of a configuration document

A document is a table of keys. Tables nest, and each remembers how it came about, because a table
may be written out once only: by a header, by a value in braces, or piece by piece through dotted
keys.
-/

set_option autoImplicit false

namespace StructuredBasic.Config

/-- How a table came about. -/
inductive Origin where
  /-- A value in braces. It is complete. -/
  | braces
  /-- Named on the way to another table by a header. -/
  | passed
  /-- Named on the way to a key by a dotted key. -/
  | dotted
  /-- Opened by a header of its own. -/
  | header
deriving DecidableEq

inductive Value where
  | string (text : String)
  | integer (value : Int)
  | boolean (value : Bool)
  /-- A number with a fraction or an exponent, as written. -/
  | float (text : String)
  /-- A date, a time of day or both, as written. -/
  | dateTime (text : String)
  | array (elements : List Value)
  | table (origin : Origin) (entries : List (String × Value))
  /-- Tables that headers in double brackets have opened, in order. -/
  | tables (elements : List (List (String × Value)))

abbrev Entries := List (String × Value)

namespace Entries

def find? : Entries → String → Option Value
  | [], _ => none
  | (key, value) :: rest, wanted => if key = wanted then some value else find? rest wanted

/-- Gives a key a value, in place if the key is there. -/
def put : Entries → String → Value → Entries
  | [], key, value => [(key, value)]
  | (other, old) :: rest, key, value =>
    if other = key then (key, value) :: rest else (other, old) :: put rest key value

end Entries

/-- Changes the last element of a list. A list without one stays as it is, and a change that fails
fails as a whole. -/
def updateLast {α : Type} (f : α → Option α) : List α → Option (List α)
  | [] => some []
  | [x] => (f x).map fun y => [y]
  | x :: rest => (updateLast f rest).map (x :: ·)

/-! ## Keys -/

/-- Adds a key with its value behind the keys of `path`. Tables on the way are made by dotted keys;
one that is there must have come about on the way to something else, and the table that takes the
key by dotted keys alone. -/
def insert (entries : Entries) : List String → String → Value → Option Entries
  | [], key, value =>
    match entries.find? key with
    | some _ => none
    | none => some (entries.put key value)
  | step :: path, key, value =>
    match entries.find? step with
    | none => (insert [] path key value).map fun inner => entries.put step (.table .dotted inner)
    | some (.table .dotted inner) =>
      (insert inner path key value).map fun inner => entries.put step (.table .dotted inner)
    | some (.table .passed inner) =>
      if path.isEmpty then none
      else (insert inner path key value).map fun inner => entries.put step (.table .passed inner)
    | some (.tables elements) =>
      if path.isEmpty then none
      else (updateLast (fun inner => insert inner path key value) elements).map fun elements =>
        entries.put step (.tables elements)
    | some _ => none

/-! ## Headers -/

/-- Changes the table at the end of `path`, where `[[…]]` stands for its last element. Tables that
are missing are passed on the way. -/
def descend (entries : Entries) (f : Entries → Option Entries) : List String → Option Entries
  | [] => f entries
  | step :: path =>
    match entries.find? step with
    | none => (descend [] f path).map fun inner => entries.put step (.table .passed inner)
    | some (.table origin inner) =>
      if origin = .braces then none
      else (descend inner f path).map fun inner => entries.put step (.table origin inner)
    | some (.tables elements) =>
      (updateLast (fun inner => descend inner f path) elements).map fun elements =>
        entries.put step (.tables elements)
    | some _ => none

/-- Opens the table of a header. A table that was only passed before may be opened. -/
def openTable (key : String) (entries : Entries) : Option Entries :=
  match entries.find? key with
  | none => some (entries.put key (.table .header []))
  | some (.table .passed inner) => some (entries.put key (.table .header inner))
  | some _ => none

/-- Opens one more table of a header in double brackets. -/
def openElement (key : String) (entries : Entries) : Option Entries :=
  match entries.find? key with
  | none => some (entries.put key (.tables [[]]))
  | some (.tables elements) => some (entries.put key (.tables (elements ++ [[]])))
  | some _ => none

end StructuredBasic.Config
