import StructuredBasic.Json.Access
import StructuredBasic.Json.Read
import StructuredBasic.Proofs.Text.Words

/-!
# Reading back indented text

The reader inverts the indented text of a value whose numbers are written with number characters
(`parse_pretty`). Escaped strings come first, then values by induction on their structure: every
text is read with anything behind it that no number can go on with.
-/

set_option autoImplicit false

namespace StructuredBasic.Json

/-! ## Strings -/

section Characters

attribute [local simp] stringBody

theorem stringBody_escape {c x : Char} (h : unescape? c = some x) (read rest : List Char) :
    stringBody none read ('\\' :: c :: rest) = stringBody none (x :: read) rest := by
  have hu : c ≠ 'u' := by rintro rfl; simp [unescape?] at h
  simp [h, hu]

theorem stringBody_plain {c : Char} (hquote : c ≠ '"') (hslash : c ≠ '\\')
    (hcontrol : ¬ c.toNat < 32) (read rest : List Char) :
    stringBody none read (c :: rest) = stringBody none (c :: read) rest := by
  simp [hquote, hslash, hcontrol]

theorem hexNumber_control : ∀ n < 32,
    hexNumber? ['0', '0', hexDigit (n / 16), hexDigit (n % 16)] = some n := by decide

/-- A control character comes back from its four digits. -/
theorem stringBody_control {c : Char} (hcontrol : c.toNat < 32) (read rest : List Char) :
    stringBody none read ('\\' :: 'u' :: '0' :: '0' :: hexDigit (c.toNat / 16) ::
      hexDigit (c.toNat % 16) :: rest) = stringBody none (c :: read) rest := by
  have hhigh : isHighSurrogate c.toNat = false := by simp [isHighSurrogate]; omega
  have hlow : isLowSurrogate c.toNat = false := by simp [isLowSurrogate]; omega
  simp [hexNumber_control _ hcontrol, hhigh, hlow]

/-- An escaped character is read as the character. -/
theorem stringBody_escapeChar (c : Char) (read rest : List Char) :
    stringBody none read (escapeChar c ++ rest) = stringBody none (c :: read) rest := by
  unfold escapeChar
  repeat' split
  all_goals first
    | subst_vars; exact stringBody_escape (by rfl) read rest
    | exact stringBody_control (by assumption) read rest
    | exact stringBody_plain (by assumption) (by assumption) (by assumption) read rest

theorem stringBody_escaped (cs read rest : List Char) :
    stringBody none read (cs.flatMap escapeChar ++ '"' :: rest) =
      some (String.ofList (read.reverse ++ cs), rest) := by
  induction cs generalizing read with
  | nil => simp
  | cons c cs ih => simp [List.append_assoc, stringBody_escapeChar, ih]

end Characters

theorem quoted_toList (s : String) :
    (quoted s).toList = '"' :: (s.toList.flatMap escapeChar ++ ['"']) := by
  simp [quoted]

/-- A string ends at its own closing quote, whatever its characters are. -/
theorem stringBody_quoted (s : String) (rest : List Char) :
    stringBody none [] (s.toList.flatMap escapeChar ++ '"' :: rest) = some (s, rest) := by
  simp [stringBody_escaped]

/-! ## Spaces -/

theorem skipSpace_newline (depth : Nat) (rest : List Char) :
    skipSpace ((newline depth).toList ++ rest) = skipSpace rest := by
  simp [newline, skipSpace]

theorem skipSpace_mark {c : Char} (h : (c == ' ' || c == '\t' || c == '\n' || c == '\r') = false)
    (rest : List Char) : skipSpace (c :: rest) = c :: rest := by
  simp [skipSpace, h]

/-- A character that a value can start with: no space, and no bracket that closes. -/
def isFirstChar (c : Char) : Bool :=
  isNumberChar c || c == '"' || c == '[' || c == '{' || c == 't' || c == 'f' || c == 'n'

/-- A text that starts as a value does. -/
def Begins (text : List Char) : Prop := ∃ c tail, text = c :: tail ∧ isFirstChar c

theorem Begins.append {text : List Char} (h : Begins text) (rest : List Char) :
    Begins (text ++ rest) := by
  obtain ⟨c, tail, rfl, hc⟩ := h
  exact ⟨c, tail ++ rest, rfl, hc⟩

theorem Begins.skipSpace {text : List Char} (h : Begins text) : skipSpace text = text := by
  obtain ⟨c, tail, rfl, hc⟩ := h
  refine List.dropWhile_cons_of_neg fun hspace => ?_
  simp only [Bool.or_eq_true, beq_iff_eq] at hspace
  rcases hspace with ((rfl | rfl) | rfl) | rfl <;> revert hc <;> decide

/-! ## Numbers -/

/-- A text that can stand for a number. -/
structure Numeral (text : String) : Prop where
  nonempty : text.toList ≠ []
  chars : ∀ c ∈ text.toList, isNumberChar c

/-- No number goes on in this text. -/
def Stops (rest : List Char) : Prop := ∀ c ∈ rest.head?, isNumberChar c = false

theorem takeWhile_numeral {text : String} (h : Numeral text) {rest : List Char}
    (hrest : Stops rest) : (text.toList ++ rest).takeWhile isNumberChar = text.toList :=
  Text.takeWhile_word h.chars hrest

theorem dropWhile_numeral {text : String} (h : Numeral text) {rest : List Char}
    (hrest : Stops rest) : (text.toList ++ rest).dropWhile isNumberChar = rest :=
  Text.dropWhile_word h.chars hrest

/-! ## Values -/

/-- Every number of a value has a text that can be read. -/
def Numeric (j : Json) : Prop := ∀ text ∈ j.numbers, Numeral text

theorem pretty_begins {j : Json} (hj : j.Numeric) (depth : Nat) :
    Begins (j.pretty depth).toList := by
  cases j with
  | null => exact ⟨'n', _, by simp [pretty]; rfl, rfl⟩
  | bool value =>
    cases value with
    | true => exact ⟨'t', _, by simp [pretty]; rfl, rfl⟩
    | false => exact ⟨'f', _, by simp [pretty]; rfl, rfl⟩
  | number text =>
    have htext : Numeral text := hj text (by simp [numbers])
    obtain ⟨c, tail, hc⟩ := List.exists_cons_of_ne_nil htext.nonempty
    refine ⟨c, tail, by simpa [pretty] using hc, ?_⟩
    simp [isFirstChar, htext.chars c (by simp [hc])]
  | string value => exact ⟨'"', _, by simp [pretty, quoted_toList]; rfl, rfl⟩
  | array elements => cases elements <;> exact ⟨'[', _, by simp [pretty]; rfl, rfl⟩
  | object fields =>
    rcases fields with _ | ⟨⟨key, value⟩, rest⟩ <;> exact ⟨'{', _, by simp [pretty]; rfl, rfl⟩

section Steps

attribute [local simp] value elements fields

theorem value_number {text : String} (h : Numeral text) {rest cs : List Char} (hrest : Stops rest)
    (hcs : skipSpace cs = text.toList ++ rest) (fuel : Nat) :
    value (fuel + 1) cs = some (.number text, rest) := by
  obtain ⟨first, tail, htext⟩ := List.exists_cons_of_ne_nil h.nonempty
  have hne (c : Char) (hc : isNumberChar c = false) : first ≠ c := by
    rintro rfl
    simp [h.chars first (by simp [htext])] at hc
  rw [value, hcs]
  split
  case h_7 =>
    rw [takeWhile_numeral h hrest, dropWhile_numeral h hrest]
    simp [htext, ← String.toList_inj]
  -- no first character of a number selects another kind of value
  all_goals
    next heq =>
      rw [htext] at heq
      exact absurd (List.cons.inj heq).1 (hne _ (by decide))

theorem value_null {cs rest : List Char} (hcs : skipSpace cs = "null".toList ++ rest) (fuel : Nat) :
    value (fuel + 1) cs = some (.null, rest) := by
  simp [hcs, afterWord?]

theorem value_bool {flag : Bool} {cs rest : List Char}
    (hcs : skipSpace cs = (if flag then "true" else "false").toList ++ rest) (fuel : Nat) :
    value (fuel + 1) cs = some (.bool flag, rest) := by
  cases flag <;> simp [hcs, afterWord?]

theorem value_string {text : String} {cs rest : List Char}
    (hcs : skipSpace cs = (quoted text).toList ++ rest) (fuel : Nat) :
    value (fuel + 1) cs = some (.string text, rest) := by
  simp [hcs, quoted_toList, stringBody_quoted]

theorem value_emptyList {cs rest : List Char} (hcs : skipSpace cs = '[' :: ']' :: rest)
    (fuel : Nat) : value (fuel + 1) cs = some (.array [], rest) := by
  simp [hcs, skipSpace_mark]

theorem value_emptyObject {cs rest : List Char} (hcs : skipSpace cs = '{' :: '}' :: rest)
    (fuel : Nat) : value (fuel + 1) cs = some (.object [], rest) := by
  simp [hcs, skipSpace_mark]

theorem value_openList {cs inner text : List Char} (hcs : skipSpace cs = '[' :: inner)
    (hinner : skipSpace inner = text) (htext : Begins text) (fuel : Nat) :
    value (fuel + 1) cs = elements fuel [] text := by
  obtain ⟨c, tail, rfl, hc⟩ := htext
  have hclose : c ≠ ']' := by rintro rfl; revert hc; decide
  simp [hcs, hinner, hclose]

theorem value_openObject {cs inner text : List Char} (hcs : skipSpace cs = '{' :: inner)
    (hinner : skipSpace inner = text) (htext : Begins text) (fuel : Nat) :
    value (fuel + 1) cs = fields fuel [] text := by
  obtain ⟨c, tail, rfl, hc⟩ := htext
  have hclose : c ≠ '}' := by rintro rfl; revert hc; decide
  simp [hcs, hinner, hclose]

variable {fuel : Nat} {cs rest tail : List Char}

theorem elements_more {element : Json} {read : List Json}
    (helement : value fuel cs = some (element, rest)) (hrest : skipSpace rest = ',' :: tail) :
    elements (fuel + 1) read cs = elements fuel (element :: read) tail := by
  simp [helement, hrest]

theorem elements_last {element : Json} {read : List Json}
    (helement : value fuel cs = some (element, rest)) (hrest : skipSpace rest = ']' :: tail) :
    elements (fuel + 1) read cs = some (.array (element :: read).reverse, tail) := by
  simp [helement, hrest]

variable {key : String} {content : Json} {read : List (String × Json)} {inner : List Char}

theorem fields_more (hcs : skipSpace cs = (quoted key).toList ++ ':' :: inner)
    (hcontent : value fuel inner = some (content, rest)) (hrest : skipSpace rest = ',' :: tail) :
    fields (fuel + 1) read cs = fields fuel ((key, content) :: read) tail := by
  simp [hcs, quoted_toList, stringBody_quoted, skipSpace_mark, hcontent, hrest]

theorem fields_last (hcs : skipSpace cs = (quoted key).toList ++ ':' :: inner)
    (hcontent : value fuel inner = some (content, rest)) (hrest : skipSpace rest = '}' :: tail) :
    fields (fuel + 1) read cs = some (.object ((key, content) :: read).reverse, tail) := by
  simp [hcs, quoted_toList, stringBody_quoted, skipSpace_mark, hcontent, hrest]

end Steps

@[simp] theorem numeric_array {parts : List Json} :
    (array parts).Numeric ↔ ∀ part ∈ parts, part.Numeric := by
  simp only [Numeric, numbers]
  induction parts with
  | nil => simp [numbersOfList]
  | cons part parts ih => simp [numbersOfList, or_imp, forall_and, ih]

@[simp] theorem numeric_object {parts : List (String × Json)} :
    (object parts).Numeric ↔ ∀ part ∈ parts, part.2.Numeric := by
  simp only [Numeric, numbers]
  induction parts with
  | nil => simp [numbersOfFields]
  | cons part parts ih => simp [numbersOfFields, or_imp, forall_and, ih]

/-! A value is read in twice as many steps as its text has characters: a list or an object spends
a step on itself and one on each part, and brackets, line breaks and commas are enough for these. -/

theorem stops_mark {c : Char} (h : isNumberChar c = false) (rest : List Char) :
    Stops (c :: rest) := by
  intro d hd
  obtain rfl : c = d := by simpa using hd
  exact h

theorem stops_elements (depth : Nat) (elements : List Json) (outer : Nat) (rest : List Char) :
    Stops ((prettyElements depth elements).toList ++ ((newline outer).toList ++ rest)) := by
  cases elements with
  | nil => simpa [prettyElements, newline] using stops_mark (by decide) _
  | cons => simpa [prettyElements] using stops_mark (by decide) _

theorem stops_fields (depth : Nat) (fields : List (String × Json)) (outer : Nat)
    (rest : List Char) :
    Stops ((prettyFields depth fields).toList ++ ((newline outer).toList ++ rest)) := by
  cases fields with
  | nil => simpa [prettyFields, newline] using stops_mark (by decide) _
  | cons => simpa [prettyFields] using stops_mark (by decide) _

theorem quoted_begins (text : String) : Begins (quoted text).toList :=
  ⟨'"', _, quoted_toList text, rfl⟩

theorem skipSpace_blank_pretty {j : Json} (hj : j.Numeric) (depth : Nat) (rest : List Char) :
    skipSpace (' ' :: ((j.pretty depth).toList ++ rest)) = (j.pretty depth).toList ++ rest :=
  ((pretty_begins hj depth).append rest).skipSpace

/-- The indented text of this value is read, at every depth and whatever stands behind it. -/
def Reads (j : Json) : Prop :=
  ∀ ⦃depth fuel : Nat⦄ ⦃cs rest : List Char⦄, Stops rest →
    skipSpace cs = (j.pretty depth).toList ++ rest →
    2 * (j.pretty depth).toList.length ≤ fuel → value fuel cs = some (j, rest)

theorem Reads.of_succ {j : Json} (hj : j.Numeric)
    (h : ∀ {depth fuel : Nat} {cs rest : List Char}, Stops rest →
      skipSpace cs = (j.pretty depth).toList ++ rest →
      2 * (j.pretty depth).toList.length ≤ fuel + 1 → value (fuel + 1) cs = some (j, rest)) :
    j.Reads := by
  intro depth fuel cs rest hrest hcs hfuel
  obtain ⟨c, tail, htext, -⟩ := pretty_begins hj depth
  obtain ⟨fuel, rfl⟩ : ∃ n, fuel = n + 1 := ⟨fuel - 1, by simp [htext] at hfuel; omega⟩
  exact h hrest hcs hfuel

/-- What stands behind the first of the parts between brackets. -/
def moreElements (depth : Nat) (others : List Json) (outer : Nat) (rest : List Char) : List Char :=
  (prettyElements depth others).toList ++ ((newline outer).toList ++ ']' :: rest)

def moreFields (depth : Nat) (others : List (String × Json)) (outer : Nat) (rest : List Char) :
    List Char :=
  (prettyFields depth others).toList ++ ((newline outer).toList ++ '}' :: rest)

theorem elements_pretty {element : Json} {others read : List Json} {depth outer fuel : Nat}
    {cs rest : List Char} (hread : ∀ part ∈ element :: others, part.Numeric ∧ part.Reads)
    (hcs : skipSpace cs =
      (element.pretty depth).toList ++ moreElements depth others outer rest)
    (hfuel : 2 * ((element.pretty depth).toList.length +
      (prettyElements depth others).toList.length) < fuel) :
    elements fuel read cs = some (.array (read.reverse ++ element :: others), rest) := by
  induction others generalizing element read fuel cs with
  | nil =>
    obtain ⟨fuel, rfl⟩ : ∃ n, fuel = n + 1 := ⟨fuel - 1, by omega⟩
    have hvalue : value fuel cs = some (element, moreElements depth [] outer rest) :=
      (hread element (by simp)).2 (stops_elements _ _ _ _) hcs (by omega)
    have hclose : skipSpace (moreElements depth [] outer rest) = ']' :: rest := by
      simp [moreElements, prettyElements, skipSpace_newline, skipSpace_mark]
    simp [elements_last hvalue hclose]
  | cons next others ih =>
    obtain ⟨fuel, rfl⟩ : ∃ n, fuel = n + 1 := ⟨fuel - 1, by omega⟩
    obtain ⟨helement, hothers⟩ := List.forall_mem_cons.mp hread
    have hvalue : value fuel cs = some (element, moreElements depth (next :: others) outer rest) :=
      helement.2 (stops_elements _ _ _ _) hcs (by omega)
    have hcomma : skipSpace (moreElements depth (next :: others) outer rest) =
        ',' :: ((newline depth).toList ++
          ((next.pretty depth).toList ++ moreElements depth others outer rest)) := by
      simp [moreElements, prettyElements, skipSpace_mark]
    have hnext := (pretty_begins (hothers next (by simp)).1 depth).append
      (moreElements depth others outer rest)
    rw [elements_more hvalue hcomma,
      ih hothers ((skipSpace_newline depth _).trans hnext.skipSpace)]
    · simp
    · simp [prettyElements] at hfuel
      omega

theorem fields_pretty {key : String} {content : Json} {others read : List (String × Json)}
    {depth outer fuel : Nat} {cs rest : List Char}
    (hread : ∀ part ∈ (key, content) :: others, part.2.Numeric ∧ part.2.Reads)
    (hcs : skipSpace cs = (quoted key).toList ++ ':' :: ' ' ::
      ((content.pretty depth).toList ++ moreFields depth others outer rest))
    (hfuel : 2 * ((content.pretty depth).toList.length +
      (prettyFields depth others).toList.length) < fuel) :
    fields fuel read cs = some (.object (read.reverse ++ (key, content) :: others), rest) := by
  induction others generalizing key content read fuel cs with
  | nil =>
    obtain ⟨fuel, rfl⟩ : ∃ n, fuel = n + 1 := ⟨fuel - 1, by omega⟩
    have hcontent : content.Numeric ∧ content.Reads := hread (key, content) (by simp)
    have hvalue : value fuel (' ' ::
        ((content.pretty depth).toList ++ moreFields depth [] outer rest)) =
        some (content, moreFields depth [] outer rest) :=
      hcontent.2 (stops_fields _ _ _ _) (skipSpace_blank_pretty hcontent.1 _ _) (by omega)
    have hclose : skipSpace (moreFields depth [] outer rest) = '}' :: rest := by
      simp [moreFields, prettyFields, skipSpace_newline, skipSpace_mark]
    simp [fields_last hcs hvalue hclose]
  | cons next others ih =>
    obtain ⟨nextKey, nextContent⟩ := next
    obtain ⟨fuel, rfl⟩ : ∃ n, fuel = n + 1 := ⟨fuel - 1, by omega⟩
    have hcontent : content.Numeric ∧ content.Reads := hread (key, content) (by simp)
    have hothers := (List.forall_mem_cons.mp hread).2
    have hvalue : value fuel (' ' :: ((content.pretty depth).toList ++
        moreFields depth ((nextKey, nextContent) :: others) outer rest)) =
        some (content, moreFields depth ((nextKey, nextContent) :: others) outer rest) :=
      hcontent.2 (stops_fields _ _ _ _) (skipSpace_blank_pretty hcontent.1 _ _) (by omega)
    have hcomma : skipSpace (moreFields depth ((nextKey, nextContent) :: others) outer rest) =
        ',' :: ((newline depth).toList ++ ((quoted nextKey).toList ++ ':' :: ' ' ::
          ((nextContent.pretty depth).toList ++ moreFields depth others outer rest))) := by
      simp [moreFields, prettyFields, skipSpace_mark]
    have hnext := (quoted_begins nextKey).append (':' :: ' ' ::
      ((nextContent.pretty depth).toList ++ moreFields depth others outer rest))
    rw [fields_more hcs hvalue hcomma,
      ih hothers ((skipSpace_newline depth _).trans hnext.skipSpace)]
    · simp
    · simp [prettyFields] at hfuel
      omega

theorem reads_array {parts : List Json} (hread : ∀ part ∈ parts, part.Numeric ∧ part.Reads) :
    (array parts).Reads := by
  refine .of_succ (numeric_array.mpr fun part h => (hread part h).1) ?_
  intro depth fuel cs rest hrest hcs hfuel
  cases parts with
  | nil => exact value_emptyList (by simp [hcs, pretty]) fuel
  | cons element others =>
    have hbegins := (pretty_begins (hread element (by simp)).1 (depth + 1)).append
      (moreElements (depth + 1) others depth rest)
    have hopen : value (fuel + 1) cs = elements fuel [] ((element.pretty (depth + 1)).toList ++
        moreElements (depth + 1) others depth rest) :=
      value_openList (by simp [hcs, pretty, moreElements])
        ((skipSpace_newline (depth + 1) _).trans hbegins.skipSpace) hbegins fuel
    rw [hopen, elements_pretty hread hbegins.skipSpace]
    · simp
    · simp [pretty] at hfuel
      omega

theorem reads_object {parts : List (String × Json)}
    (hread : ∀ part ∈ parts, part.2.Numeric ∧ part.2.Reads) : (object parts).Reads := by
  refine .of_succ (numeric_object.mpr fun part h => (hread part h).1) ?_
  intro depth fuel cs rest hrest hcs hfuel
  rcases parts with _ | ⟨⟨key, content⟩, others⟩
  · exact value_emptyObject (by simp [hcs, pretty]) fuel
  · have hbegins := (quoted_begins key).append (':' :: ' ' ::
      ((content.pretty (depth + 1)).toList ++ moreFields (depth + 1) others depth rest))
    have hopen : value (fuel + 1) cs = fields fuel [] ((quoted key).toList ++ ':' :: ' ' ::
        ((content.pretty (depth + 1)).toList ++ moreFields (depth + 1) others depth rest)) :=
      value_openObject (by simp [hcs, pretty, moreFields])
        ((skipSpace_newline (depth + 1) _).trans hbegins.skipSpace) hbegins fuel
    rw [hopen, fields_pretty hread hbegins.skipSpace]
    · simp
    · simp [pretty] at hfuel
      omega

/-- What holds of a list or an object as soon as it holds of its parts holds of every value. -/
@[elab_as_elim]
theorem induction_parts {motive : Json → Prop} (null : motive .null)
    (bool : ∀ flag, motive (.bool flag)) (number : ∀ text, motive (.number text))
    (string : ∀ text, motive (.string text))
    (array : ∀ parts, (∀ part ∈ parts, motive part) → motive (.array parts))
    (object : ∀ parts, (∀ part ∈ parts, motive part.2) → motive (.object parts)) :
    ∀ j, motive j
  | .null => null
  | .bool flag => bool flag
  | .number text => number text
  | .string text => string text
  | .array parts => array parts fun part _ =>
      induction_parts null bool number string array object part
  | .object parts => object parts fun part _ =>
      induction_parts null bool number string array object part.2
termination_by j => sizeOf j
decreasing_by
  · have hpart := List.sizeOf_lt_of_mem ‹_›
    rw [Json.array.sizeOf_spec]
    omega
  · have hpart := List.sizeOf_lt_of_mem ‹_›
    have hcontent : sizeOf part.2 < sizeOf part := by
      obtain ⟨key, content⟩ := part
      simp only [Prod.mk.sizeOf_spec]
      omega
    rw [Json.object.sizeOf_spec]
    omega

theorem Numeric.reads {j : Json} : j.Numeric → j.Reads := by
  induction j using induction_parts with
  | null => exact fun h => .of_succ h fun _ hcs _ => value_null (by rw [hcs, pretty]) _
  | bool flag => exact fun h => .of_succ h fun _ hcs _ => value_bool (by rw [hcs, pretty]) _
  | number text =>
    exact fun h => .of_succ h fun hrest hcs _ =>
      value_number (h text (by simp [numbers])) hrest (by rw [hcs, pretty]) _
  | string text => exact fun h => .of_succ h fun _ hcs _ => value_string (by rw [hcs, pretty]) _
  | array parts ih =>
    exact fun h => reads_array fun part hpart =>
      ⟨numeric_array.mp h part hpart, ih part hpart (numeric_array.mp h part hpart)⟩
  | object parts ih =>
    exact fun h => reads_object fun part hpart =>
      ⟨numeric_object.mp h part hpart, ih part hpart (numeric_object.mp h part hpart)⟩

/-- The reader gives back every value from its indented text. -/
theorem parse_pretty {j : Json} (hj : j.Numeric) : parse (j.pretty 0) = some j := by
  have hvalue : value (2 * (j.pretty 0).toList.length + 2) (j.pretty 0).toList = some (j, []) :=
    hj.reads nofun (by rw [List.append_nil]; exact (pretty_begins hj 0).skipSpace) (by omega)
  simp only [parse, hvalue]
  rfl

end StructuredBasic.Json
