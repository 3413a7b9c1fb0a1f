import Mathlib.Data.List.DropRight
import StructuredBasic.Proofs.Text.Words
import StructuredBasic.Text.Markup

/-!
# Reading markup back

`Markup.document?` reads one element with everything in it: a closing tag has to name the element
that it closes, an element holds text or children, and entities stand for reserved characters. It
inverts `Element.render` (`Element.Readable.document?_render`), whatever the texts are.
-/

set_option autoImplicit false

namespace StructuredBasic.Text

/-! ## Entities -/

/-- Every entity replaced by its character, from left to right. -/
def unescape : List Char → List Char
  | '&' :: 'a' :: 'm' :: 'p' :: ';' :: rest => '&' :: unescape rest
  | '&' :: 'l' :: 't' :: ';' :: rest => '<' :: unescape rest
  | '&' :: 'g' :: 't' :: ';' :: rest => '>' :: unescape rest
  | '&' :: 'q' :: 'u' :: 'o' :: 't' :: ';' :: rest => '"' :: unescape rest
  | '&' :: 'a' :: 'p' :: 'o' :: 's' :: ';' :: rest => '\'' :: unescape rest
  | c :: rest => c :: unescape rest
  | [] => []

def unescapeMarkup (s : String) : String := String.ofList (unescape s.toList)

/-- The characters that tags and attributes are made with. -/
def isMark (c : Char) : Bool := c == '<' || c == '>' || c == '"' || c == '\''

theorem unescape_entity (c : Char) (rest : List Char) :
    unescape (entity c ++ rest) = c :: unescape rest := by
  unfold entity
  repeat' split
  case isFalse h _ _ _ _ => simp [unescape, h]
  all_goals subst_vars; simp [unescape]

theorem unescape_flatMap (cs : List Char) : unescape (cs.flatMap entity) = cs := by
  induction cs with
  | nil => rfl
  | cons c cs ih => rw [List.flatMap_cons, unescape_entity, ih]

theorem isMark_entity (c : Char) : ∀ d ∈ entity c, isMark d = false := by
  unfold entity
  repeat' split
  case isFalse => simp_all [isMark]
  all_goals simp [isMark]

theorem escapeMarkup_toList (s : String) : (escapeMarkup s).toList = s.toList.flatMap entity := by
  simp [escapeMarkup]

/-- An escaped text holds none of the characters that tags and attributes are made with. -/
theorem isMark_escapeMarkup {s : String} {c : Char} (h : c ∈ (escapeMarkup s).toList) :
    isMark c = false := by
  rw [escapeMarkup_toList] at h
  obtain ⟨d, _, hc⟩ := List.mem_flatMap.mp h
  exact isMark_entity d c hc

theorem unescapeMarkup_escapeMarkup (s : String) : unescapeMarkup (escapeMarkup s) = s := by
  rw [unescapeMarkup, escapeMarkup_toList, unescape_flatMap, String.ofList_toList]

/-! ## The reader -/

namespace Markup

def isNameChar (c : Char) : Bool := c.isAlphanum

def skipBlank (cs : List Char) : List Char := cs.dropWhile Char.isWhitespace

/-- A name, and a value in quotes. -/
def pair? (cs : List Char) : Option ((String × String) × List Char) :=
  match cs.takeWhile isNameChar, cs.dropWhile isNameChar with
  | c :: name, '=' :: '"' :: rest =>
    let value := rest.takeWhile (· != '"')
    match rest.dropWhile (· != '"') with
    | '"' :: rest =>
      if value.contains '<' then none
      else some ((String.ofList (c :: name), String.ofList (unescape value)), rest)
    | _ => none
  | _, _ => none

/-- The attributes of a tag, and the rest from the end of the tag. -/
def attributes : Nat → List Char → Option (List (String × String) × List Char)
  | 0, _ => none
  | fuel + 1, cs =>
    match skipBlank cs with
    | '>' :: rest => some ([], '>' :: rest)
    | '/' :: rest => some ([], '/' :: rest)
    | cs => do
      let (first, rest) ← pair? cs
      let (more, rest) ← attributes fuel rest
      return (first :: more, rest)

mutual

/-- An element, and the rest behind it. -/
def element : Nat → List Char → Option (Element × List Char)
  | 0, _ => none
  | fuel + 1, cs =>
    match skipBlank cs with
    | '<' :: cs => do
      let name := cs.takeWhile isNameChar
      let (pairs, rest) ← attributes fuel (cs.dropWhile isNameChar)
      match name.isEmpty, rest with
      | false, '/' :: '>' :: rest => some (.mk (String.ofList name) pairs none [], rest)
      | false, '>' :: rest => do
        let (text, parts, rest) ← content fuel rest
        let rest ← rest.dropPrefix? (name ++ ['>'])
        return (.mk (String.ofList name) pairs text parts, rest)
      | _, _ => none
    | _ => none

/-- The text or the children of an element, and the rest behind the mark of its closing tag. -/
def content : Nat → List Char → Option (Option String × List Element × List Char)
  | 0, _ => none
  | fuel + 1, cs =>
    let text := cs.takeWhile (· != '<')
    match cs.dropWhile (· != '<') with
    | '<' :: '/' :: rest => some (some (String.ofList (unescape text)), [], rest)
    | rest =>
      if text.all Char.isWhitespace then do
        let (parts, rest) ← children fuel rest
        return (none, parts, rest)
      else none

/-- Elements up to a closing tag, and the rest behind the mark of that tag. -/
def children : Nat → List Char → Option (List Element × List Char)
  | 0, _ => none
  | fuel + 1, cs =>
    match skipBlank cs with
    | '<' :: '/' :: rest => some ([], rest)
    | cs => do
      let (first, rest) ← element fuel cs
      let (more, rest) ← children fuel rest
      return (first :: more, rest)

end

/-- The one element that a text consists of, with nothing but spaces around. -/
def document? (s : String) : Option Element := do
  let (result, rest) ← element (s.length + 1) s.toList
  if rest.all Char.isWhitespace then some result else none

/-! ## Names and attributes -/

/-- A text that can stand for the name of an element or an attribute. -/
structure IsName (text : String) : Prop where
  nonempty : text.toList ≠ []
  chars : ∀ c ∈ text.toList, isNameChar c

theorem isName_ofList {cs : List Char} (h : (!cs.isEmpty && cs.all isNameChar) = true) :
    IsName (String.ofList cs) := by
  rw [Bool.and_eq_true, Bool.not_eq_true', List.isEmpty_eq_false_iff, List.all_eq_true] at h
  constructor <;> rw [String.toList_ofList]
  · exact h.1
  · exact h.2

theorem IsName.isEmpty_eq {text : String} (h : IsName text) : text.toList.isEmpty = false :=
  List.isEmpty_eq_false_iff.mpr h.nonempty

/-- No name goes on in this text. -/
def Stops (rest : List Char) : Prop := ∀ c ∈ rest.head?, isNameChar c = false

theorem takeWhile_name {text : String} (h : IsName text) {rest : List Char} (hrest : Stops rest) :
    (text.toList ++ rest).takeWhile isNameChar = text.toList :=
  takeWhile_word h.chars hrest

theorem dropWhile_name {text : String} (h : IsName text) {rest : List Char} (hrest : Stops rest) :
    (text.toList ++ rest).dropWhile isNameChar = rest :=
  dropWhile_word h.chars hrest

/-- No mark stands in an escaped text. -/
theorem escaped_ne_mark {mark : Char} (hmark : isMark mark) (value : String) :
    ∀ c ∈ (escapeMarkup value).toList, (c != mark) = true := by
  intro c hc
  rw [bne_iff_ne]
  rintro rfl
  rw [isMark_escapeMarkup hc] at hmark
  cases hmark

theorem takeWhile_escaped {mark : Char} (hmark : isMark mark) (value : String) (rest : List Char) :
    ((escapeMarkup value).toList ++ mark :: rest).takeWhile (· != mark) =
      (escapeMarkup value).toList :=
  takeWhile_word (escaped_ne_mark hmark value) (by simp)

theorem dropWhile_escaped {mark : Char} (hmark : isMark mark) (value : String) (rest : List Char) :
    ((escapeMarkup value).toList ++ mark :: rest).dropWhile (· != mark) = mark :: rest :=
  dropWhile_word (escaped_ne_mark hmark value) (by simp)

/-- An attribute ends at its own closing quote, whatever its value is. -/
theorem pair?_attribute {name : String} (h : IsName name) (value : String) (rest : List Char) :
    pair? (name.toList ++ '=' :: '"' :: ((escapeMarkup value).toList ++ '"' :: rest)) =
      some ((name, value), rest) := by
  have hstops : Stops ('=' :: '"' :: ((escapeMarkup value).toList ++ '"' :: rest)) := by
    simp [Stops]
    decide
  obtain ⟨c, tail, hname⟩ := List.exists_cons_of_ne_nil h.nonempty
  have hopen : '<' ∉ (escapeMarkup value).toList := fun hc => by
    simpa [isMark] using isMark_escapeMarkup hc
  have hvalue : String.ofList (unescape (escapeMarkup value).toList) = value :=
    unescapeMarkup_escapeMarkup value
  have htext : String.ofList (c :: tail) = name := by rw [← hname, String.ofList_toList]
  have htake := takeWhile_escaped (by decide : isMark '"') value rest
  have hdrop := dropWhile_escaped (by decide : isMark '"') value rest
  rw [pair?, takeWhile_name h hstops, dropWhile_name h hstops, hname]
  simp only [htake, hdrop]
  simp [hopen, hvalue, htext]

theorem attributesText_cons (name value : String) (pairs : List (String × String)) :
    (Element.attributesText ((name, value) :: pairs)).toList = ' ' :: (name.toList ++ '=' :: '"' ::
      ((escapeMarkup value).toList ++ '"' :: (Element.attributesText pairs).toList)) := by
  simp [Element.attributesText, Element.attributeText]

theorem skipBlank_nameChar {c : Char} (h : isNameChar c) (rest : List Char) :
    skipBlank (c :: rest) = c :: rest := by
  refine List.dropWhile_cons_of_neg fun hblank => ?_
  simp only [Char.isWhitespace, Bool.or_eq_true, decide_eq_true_eq] at hblank
  rcases hblank with ((rfl | rfl) | rfl) | rfl <;> revert h <;> decide

theorem skipBlank_blank {c : Char} (h : c.isWhitespace) (rest : List Char) :
    skipBlank (c :: rest) = skipBlank rest :=
  List.dropWhile_cons_of_pos h

theorem skipBlank_skipBlank (cs : List Char) : skipBlank (skipBlank cs) = skipBlank cs :=
  List.dropWhile_idempotent _ cs

/-- What starts as a name does is an attribute, and more attributes may follow. -/
theorem attributes_step {cs tail rest : List Char} {c : Char} {first : String × String}
    {fuel : Nat} (hcs : skipBlank cs = c :: tail) (hc : isNameChar c)
    (hfirst : pair? (c :: tail) = some (first, rest)) :
    attributes (fuel + 1) cs =
      (attributes fuel rest).map fun (more, rest) => (first :: more, rest) := by
  have hclose : c ≠ '>' := by rintro rfl; revert hc; decide
  have hslash : c ≠ '/' := by rintro rfl; revert hc; decide
  simp [attributes, hcs, hclose, hslash, hfirst]
  cases attributes fuel rest <;> rfl

/-- The attributes of a tag are read up to the end of the tag. -/
theorem attributes_read {pairs : List (String × String)} (h : ∀ pair ∈ pairs, IsName pair.1)
    {rest tail : List Char} {mark : Char} (hmark : mark = '>' ∨ mark = '/')
    (hrest : skipBlank rest = mark :: tail) {fuel : Nat} (hfuel : pairs.length < fuel) :
    attributes fuel ((Element.attributesText pairs).toList ++ rest) =
      some (pairs, mark :: tail) := by
  induction pairs generalizing fuel with
  | nil =>
    obtain ⟨fuel, rfl⟩ : ∃ n, fuel = n + 1 := ⟨fuel - 1, by omega⟩
    rcases hmark with rfl | rfl <;> simp [Element.attributesText, attributes, hrest]
  | cons pair pairs ih =>
    obtain ⟨name, value⟩ := pair
    obtain ⟨fuel, rfl⟩ : ∃ n, fuel = n + 1 := ⟨fuel - 1, by omega⟩
    obtain ⟨hname, hpairs⟩ := List.forall_mem_cons.mp h
    have hmore : attributes fuel ((Element.attributesText pairs).toList ++ rest) =
        some (pairs, mark :: tail) := ih hpairs (by simpa using hfuel)
    have hfirst := pair?_attribute hname value ((Element.attributesText pairs).toList ++ rest)
    obtain ⟨c, more, htext⟩ := List.exists_cons_of_ne_nil hname.nonempty
    have hc : isNameChar c := hname.chars c (by simp [htext])
    rw [htext, List.cons_append] at hfirst
    rw [attributesText_cons, attributes_step _ hc hfirst, hmore]
    · rfl
    · simpa [htext, skipBlank_blank] using skipBlank_nameChar hc _

/-! ## One step of the reader -/

section Steps

variable {fuel : Nat} {cs inner rest tail : List Char} {c : Char} {name : String}
  {pairs : List (String × String)} {text : Option String} {first : Element}
  {parts : List Element}

theorem stops_attributes (hrest : Stops rest) (pairs : List (String × String)) :
    Stops ((Element.attributesText pairs).toList ++ rest) := by
  cases pairs with
  | nil => simpa [Element.attributesText] using hrest
  | cons pair pairs =>
    rw [attributesText_cons]
    simp [Stops]
    decide

theorem element_empty (hname : IsName name) (hpairs : ∀ pair ∈ pairs, IsName pair.1)
    (hcs : skipBlank cs = '<' :: (name.toList ++
      ((Element.attributesText pairs).toList ++ ' ' :: '/' :: '>' :: rest)))
    (hfuel : pairs.length < fuel) :
    element (fuel + 1) cs = some (.mk name pairs none [], rest) := by
  have hstops : Stops (' ' :: '/' :: '>' :: rest) := by simp [Stops]; decide
  have htag : attributes fuel ((Element.attributesText pairs).toList ++ ' ' :: '/' :: '>' :: rest) =
      some (pairs, '/' :: '>' :: rest) := attributes_read hpairs (.inr rfl) (by rfl) hfuel
  simp [element, hcs, takeWhile_name hname (stops_attributes hstops pairs),
    dropWhile_name hname (stops_attributes hstops pairs), htag, hname.isEmpty_eq]

theorem element_content (hname : IsName name) (hpairs : ∀ pair ∈ pairs, IsName pair.1)
    (hcs : skipBlank cs = '<' :: (name.toList ++
      ((Element.attributesText pairs).toList ++ '>' :: inner)))
    (hinner : content fuel inner = some (text, parts, name.toList ++ '>' :: rest))
    (hfuel : pairs.length < fuel) :
    element (fuel + 1) cs = some (.mk name pairs text parts, rest) := by
  have hstops : Stops ('>' :: inner) := by simp [Stops]; decide
  have htag : attributes fuel ((Element.attributesText pairs).toList ++ '>' :: inner) =
      some (pairs, '>' :: inner) := attributes_read hpairs (.inl rfl) (by rfl) hfuel
  have hclose : (name.toList ++ '>' :: rest).dropPrefix? (name.toList ++ ['>']) = some rest :=
    List.dropPrefix?_eq_some_iff.mpr ⟨name.toList ++ ['>'], by simp, by simp⟩
  simp [element, hcs, takeWhile_name hname (stops_attributes hstops pairs),
    dropWhile_name hname (stops_attributes hstops pairs), htag, hname.isEmpty_eq, hinner, hclose]

theorem content_text (t : String) (rest : List Char) (fuel : Nat) :
    content (fuel + 1) ((escapeMarkup t).toList ++ '<' :: '/' :: rest) =
      some (some t, [], rest) := by
  have htake := takeWhile_escaped (by decide : isMark '<') t ('/' :: rest)
  have hdrop := dropWhile_escaped (by decide : isMark '<') t ('/' :: rest)
  have htext : String.ofList (unescape (escapeMarkup t).toList) = t := unescapeMarkup_escapeMarkup t
  simp only [content, htake, hdrop, htext]

theorem content_children (hopen : skipBlank inner = '<' :: c :: tail) (hc : isNameChar c)
    (hparts : children fuel ('<' :: c :: tail) = some (parts, rest)) :
    content (fuel + 1) inner = some (none, parts, rest) := by
  -- nothing but spaces stands in front of the first child
  obtain ⟨before, hbefore, rfl⟩ :
      ∃ before, (∀ d ∈ before, d.isWhitespace) ∧ inner = before ++ '<' :: c :: tail :=
    ⟨inner.takeWhile Char.isWhitespace, fun _ => List.mem_takeWhile_imp,
      by rw [← hopen]; exact List.takeWhile_append_dropWhile.symm⟩
  have hmark : ∀ d ∈ before, (d != '<') = true := fun d hd => by
    simp only [bne_iff_ne]
    rintro rfl
    exact absurd (hbefore _ hd) (by decide)
  have htake : (before ++ '<' :: c :: tail).takeWhile (· != '<') = before :=
    takeWhile_word hmark (by simp)
  have hdrop : (before ++ '<' :: c :: tail).dropWhile (· != '<') = '<' :: c :: tail :=
    dropWhile_word hmark (by simp)
  have hslash : c ≠ '/' := by rintro rfl; revert hc; decide
  have hblank : before.all Char.isWhitespace = true := List.all_eq_true.mpr hbefore
  simp only [content, htake, hdrop, hblank]
  simp [hslash, hparts]

theorem children_nil (hcs : skipBlank cs = '<' :: '/' :: rest) (fuel : Nat) :
    children (fuel + 1) cs = some ([], rest) := by
  simp [children, hcs]

theorem children_cons (hcs : skipBlank cs = '<' :: c :: tail) (hc : isNameChar c)
    (hfirst : element fuel ('<' :: c :: tail) = some (first, rest)) :
    children (fuel + 1) cs =
      (children fuel rest).map fun (more, rest) => (first :: more, rest) := by
  have hslash : c ≠ '/' := by rintro rfl; revert hc; decide
  simp [children, hcs, hslash, hfirst]
  cases children fuel rest <;> rfl

end Steps

end Markup

/-! ## Elements -/

namespace Element

open Markup

/-- Elements that can be told from their text: names are names, and an element holds text or
children but not both. -/
inductive Readable : Element → Prop
  | mk {name : String} {attributes : List (String × String)} {text : Option String}
      {children : List Element} (name_ok : IsName name)
      (attributes_ok : ∀ pair ∈ attributes, IsName pair.1) (apart : text = none ∨ children = [])
      (children_ok : ∀ child ∈ children, Readable child) :
      Readable (.mk name attributes text children)

/-- The text of this element is read, at every depth and whatever stands behind it. -/
def Reads (e : Element) : Prop :=
  ∀ ⦃indent depth fuel : Nat⦄ ⦃cs rest : List Char⦄,
    skipBlank cs = skipBlank ((render indent depth e).toList ++ rest) →
    (render indent depth e).toList.length ≤ fuel → element fuel cs = some (e, '\n' :: rest)

theorem skipBlank_pad (indent depth : Nat) (rest : List Char) :
    skipBlank ((pad indent depth).toList ++ rest) = skipBlank rest := by
  rw [pad, String.toList_ofList]
  refine List.dropWhile_append_of_pos fun c hc => ?_
  rw [List.eq_of_mem_replicate hc]
  rfl

theorem skipBlank_opening (indent depth : Nat) (rest : List Char) :
    skipBlank ((pad indent depth).toList ++ '<' :: rest) = '<' :: rest := by
  rw [skipBlank_pad]
  rfl

section Layout

variable (indent depth : Nat) (name : String) (attributes : List (String × String))

theorem render_empty :
    (render indent depth (.mk name attributes none [])).toList = (pad indent depth).toList ++
      '<' :: (name.toList ++ ((attributesText attributes).toList ++ [' ', '/', '>', '\n'])) := by
  simp [render]

theorem render_text (text : String) :
    (render indent depth (.mk name attributes (some text) [])).toList =
      (pad indent depth).toList ++ '<' :: (name.toList ++ ((attributesText attributes).toList ++
        '>' :: ((escapeMarkup text).toList ++ '<' :: '/' :: (name.toList ++ ['>', '\n'])))) := by
  simp [render]

theorem render_children (child : Element) (children : List Element) :
    (render indent depth (.mk name attributes none (child :: children))).toList =
      (pad indent depth).toList ++ '<' :: (name.toList ++ ((attributesText attributes).toList ++
        '>' :: '\n' :: ((renderAll indent (depth + 1) (child :: children)).toList ++
          ((pad indent depth).toList ++ '<' :: '/' :: (name.toList ++ ['>', '\n']))))) := by
  simp [render, escapeMarkup]

end Layout

theorem length_attributesText (attributes : List (String × String)) :
    attributes.length ≤ (attributesText attributes).toList.length := by
  induction attributes with
  | nil => simp
  | cons pair attributes ih =>
    rw [attributesText_cons]
    simp only [List.length_cons, List.length_append]
    omega

theorem render_opening {name : String} {attributes : List (String × String)}
    {text : Option String} {children : List Element} (apart : text = none ∨ children = [])
    (indent depth : Nat) :
    ∃ ending, (render indent depth (.mk name attributes text children)).toList =
      (pad indent depth).toList ++ '<' :: (name.toList ++ ending) := by
  cases text with
  | some text =>
    obtain rfl : children = [] := apart.resolve_left (by simp)
    exact ⟨_, render_text ..⟩
  | none =>
    cases children with
    | nil => exact ⟨_, render_empty ..⟩
    | cons child children => exact ⟨_, render_children ..⟩

theorem Readable.skipBlank_render {e : Element} (h : e.Readable) (indent depth : Nat)
    (rest : List Char) : ∃ c tail,
      skipBlank ((render indent depth e).toList ++ rest) = '<' :: c :: tail ∧ isNameChar c := by
  obtain ⟨hname, -, apart, -⟩ := h
  obtain ⟨ending, hrender⟩ := render_opening apart indent depth
  obtain ⟨c, tail, htext⟩ := List.exists_cons_of_ne_nil hname.nonempty
  refine ⟨c, tail ++ (ending ++ rest), ?_, hname.chars c (by simp [htext])⟩
  rw [hrender, List.append_assoc, skipBlank_pad]
  simp [htext, skipBlank, List.dropWhile_cons_of_neg]

theorem Readable.length_render_pos {e : Element} (h : e.Readable) (indent depth : Nat) :
    0 < (render indent depth e).toList.length := by
  obtain ⟨-, -, apart, -⟩ := h
  obtain ⟨ending, hrender⟩ := render_opening apart indent depth
  rw [hrender, List.length_append, List.length_cons]
  omega

theorem children_read {indent depth : Nat} {es : List Element}
    (hread : ∀ e ∈ es, e.Readable ∧ e.Reads) {fuel : Nat} {cs closing rest : List Char}
    (hcs : skipBlank cs = skipBlank ((renderAll indent depth es).toList ++ closing))
    (hclosing : skipBlank closing = '<' :: '/' :: rest)
    (hfuel : (renderAll indent depth es).toList.length < fuel) :
    children fuel cs = some (es, rest) := by
  induction es generalizing fuel cs with
  | nil =>
    obtain ⟨fuel, rfl⟩ : ∃ n, fuel = n + 1 := ⟨fuel - 1, by omega⟩
    exact children_nil (by simpa [renderAll, hclosing] using hcs) fuel
  | cons e es ih =>
    obtain ⟨fuel, rfl⟩ : ∃ n, fuel = n + 1 := ⟨fuel - 1, by omega⟩
    obtain ⟨he, hes⟩ := List.forall_mem_cons.mp hread
    obtain ⟨c, tail, hopen, hc⟩ := he.1.skipBlank_render indent depth
      ((renderAll indent depth es).toList ++ closing)
    rw [renderAll, String.toList_append, List.append_assoc] at hcs
    have hpos := he.1.length_render_pos indent depth
    rw [renderAll, String.toList_append, List.length_append] at hfuel
    have hfirst : element fuel ('<' :: c :: tail) =
        some (e, '\n' :: ((renderAll indent depth es).toList ++ closing)) :=
      he.2 (by rw [← hopen]; exact skipBlank_skipBlank _) (by omega)
    have hmore : children fuel ('\n' :: ((renderAll indent depth es).toList ++ closing)) =
        some (es, rest) := ih hes (skipBlank_blank rfl _) (by omega)
    rw [children_cons (hcs.trans hopen) hc hfirst, hmore]
    rfl

theorem Readable.reads {e : Element} (h : e.Readable) : e.Reads := by
  induction h with
  | @mk name attributes text children hname hattributes apart hchildren ih =>
    intro indent depth fuel cs rest hcs hfuel
    have hlength := length_attributesText attributes
    have hpos := (Readable.mk hname hattributes apart hchildren).length_render_pos indent depth
    obtain ⟨fuel, rfl⟩ : ∃ n, fuel = n + 1 := ⟨fuel - 1, by omega⟩
    cases text with
    | some text =>
      obtain rfl : children = [] := apart.resolve_left (by simp)
      rw [render_text] at hcs hfuel
      simp only [List.length_append, List.length_cons] at hfuel
      obtain ⟨fuel, rfl⟩ : ∃ n, fuel = n + 1 := ⟨fuel - 1, by omega⟩
      have hinner := content_text text (name.toList ++ '>' :: '\n' :: rest) fuel
      exact element_content hname hattributes (by simpa [skipBlank_opening] using hcs) hinner
        (by omega)
    | none =>
      cases children with
      | nil =>
        rw [render_empty] at hcs hfuel
        simp only [List.length_append, List.length_cons] at hfuel
        refine element_empty hname hattributes ?_ (by omega)
        simpa [skipBlank_opening] using hcs
      | cons child children =>
        rw [render_children] at hcs hfuel
        simp only [List.length_append, List.length_cons] at hfuel
        obtain ⟨fuel, rfl⟩ : ∃ n, fuel = n + 1 := ⟨fuel - 1, by omega⟩
        have hclosing := skipBlank_opening indent depth
          ('/' :: (name.toList ++ '>' :: '\n' :: rest))
        obtain ⟨c, tail, hopen, hc⟩ := (hchildren child (by simp)).skipBlank_render indent
          (depth + 1) ((renderAll indent (depth + 1) children).toList ++
            ((pad indent depth).toList ++ '<' :: '/' :: (name.toList ++ '>' :: '\n' :: rest)))
        rw [← List.append_assoc, ← String.toList_append, ← renderAll] at hopen
        have hparts : Markup.children fuel ('<' :: c :: tail) =
            some (child :: children, name.toList ++ '>' :: '\n' :: rest) :=
          children_read (fun e he => ⟨hchildren e he, ih e he⟩)
            (by rw [← hopen]; exact skipBlank_skipBlank _) hclosing (by omega)
        have hinner := content_children ((skipBlank_blank (c := '\n') rfl _).trans hopen) hc hparts
        exact element_content hname hattributes
          (by simpa [skipBlank_opening] using hcs) hinner (by omega)

/-- An element is read back from its text, whatever its attributes and texts say. -/
theorem Readable.document?_render {e : Element} (h : e.Readable) (indent : Nat) :
    document? (render indent 0 e) = some e := by
  have hread : element ((render indent 0 e).length + 1) (render indent 0 e).toList =
      some (e, ['\n']) := by
    refine h.reads (by rw [List.append_nil]) ?_
    rw [String.length_toList]
    exact Nat.le_succ _
  simp only [document?, hread]
  rfl

/-! ## Shape -/

mutual

/-- The names of an element and of everything in it, each before what it holds. -/
def names : Element → List String
  | .mk name _ _ children => name :: namesOfAll children

def namesOfAll : List Element → List String
  | [] => []
  | element :: rest => names element ++ namesOfAll rest

end

mutual

/-- An element with nothing in its attributes and texts. -/
def blank : Element → Element
  | .mk name attributes text children =>
    .mk name (attributes.map fun pair => (pair.1, "")) (text.map fun _ => "") (blankAll children)

def blankAll : List Element → List Element
  | [] => []
  | element :: rest => blank element :: blankAll rest

end

/-- The marks of a text: the characters that open and close tags and values. -/
def marks (s : String) : List Char := s.toList.filter isMark

theorem marks_append (a b : String) : marks (a ++ b) = marks a ++ marks b := by
  simp [marks]

theorem marks_escapeMarkup (s : String) : marks (escapeMarkup s) = [] :=
  List.filter_eq_nil_iff.mpr fun c hc => by simp [isMark_escapeMarkup hc]

theorem marks_attributesText (attributes : List (String × String)) :
    marks (attributesText attributes) =
      marks (attributesText (attributes.map fun pair => (pair.1, ""))) := by
  induction attributes with
  | nil => rfl
  | cons pair attributes ih =>
    have hcons (pair : String × String) (attributes : List (String × String)) :
        attributesText (pair :: attributes) = attributeText pair ++ attributesText attributes := by
      simp [attributesText]
    rw [List.map_cons, hcons, hcons, marks_append, marks_append, ih]
    simp [attributeText, marks_append, marks_escapeMarkup]

mutual

/-- No text opens or closes anything: the marks are those of the element without its texts. -/
theorem marks_render (e : Element) (indent depth : Nat) :
    marks (render indent depth e) = marks (render indent depth e.blank) := by
  match e with
  | .mk name attributes none [] =>
    simp [render, blank, blankAll, marks_append, marks_attributesText attributes]
  | .mk name attributes (some text) [] =>
    simp [render, blank, blankAll, marks_append, marks_escapeMarkup,
      marks_attributesText attributes]
  | .mk name attributes text (child :: children) =>
    have hchildren := marks_renderAll (child :: children) indent (depth + 1)
    rw [blankAll] at hchildren
    simp [render, blank, blankAll, marks_append, marks_escapeMarkup,
      marks_attributesText attributes, hchildren]

theorem marks_renderAll (es : List Element) (indent depth : Nat) :
    marks (renderAll indent depth es) = marks (renderAll indent depth (blankAll es)) := by
  match es with
  | [] => rfl
  | e :: es =>
    rw [renderAll, blankAll, renderAll, marks_append, marks_append, marks_render e,
      marks_renderAll es]

end

end Element

end StructuredBasic.Text
