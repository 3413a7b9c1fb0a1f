/-!
# Nested elements as text

An element has a name, attributes in order, a text and child elements. It is written one element a
line, indented by depth, with the five reserved characters replaced by entities.
-/

set_option autoImplicit false

namespace StructuredBasic.Text

inductive Element where
  | mk (name : String) (attributes : List (String × String)) (text : Option String)
      (children : List Element)

/-- The entity of a reserved character. -/
def entity (c : Char) : List Char :=
  if c = '&' then "&amp;".toList
  else if c = '<' then "&lt;".toList
  else if c = '>' then "&gt;".toList
  else if c = '"' then "&quot;".toList
  else if c = '\'' then "&apos;".toList
  else [c]

def escapeMarkup (s : String) : String := String.ofList (s.toList.flatMap entity)

namespace Element

def attributeText (pair : String × String) : String :=
  " " ++ pair.1 ++ "=\"" ++ escapeMarkup pair.2 ++ "\""

/-- The attributes of an opening tag. -/
def attributesText (attributes : List (String × String)) : String :=
  String.join (attributes.map attributeText)

/-- Spaces in front of a line at a depth. -/
def pad (indent depth : Nat) : String := String.ofList (List.replicate (depth * indent) ' ')

mutual

/-- An element without text and children closes itself. -/
def render (indent depth : Nat) : Element → String
  | .mk name attributes text children =>
    let opening := pad indent depth ++ "<" ++ name ++ attributesText attributes
    match text, children with
    | none, [] => opening ++ " />\n"
    | _, _ =>
      let inner := match children with
        | [] => ""
        | _ :: _ => "\n" ++ renderAll indent (depth + 1) children ++ pad indent depth
      opening ++ ">" ++ escapeMarkup (text.getD "") ++ inner ++ "</" ++ name ++ ">\n"

def renderAll (indent depth : Nat) : List Element → String
  | [] => ""
  | element :: rest => render indent depth element ++ renderAll indent depth rest

end

mutual

/-- The levels below an element. -/
def height : Element → Nat
  | .mk _ _ _ children => heightOfAll children

def heightOfAll : List Element → Nat
  | [] => 0
  | element :: rest => max (height element + 1) (heightOfAll rest)

end

end Element

end StructuredBasic.Text
