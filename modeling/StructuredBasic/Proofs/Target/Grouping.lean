import StructuredBasic.Proofs.Text.Words
import StructuredBasic.Target.Print

/-!
# Grouping in printed expressions

Operands that are sums or conversions are printed in parentheses, but what stands in front of a
field, a call or an index is printed as it is. `Expr.grouped` is the text with parentheses around
these targets too. On expressions of names, sums, fields, indices, calls and conversions
(`Expr.Simple`) a reader gets every expression back from its grouped text (`read_grouped`). So the
printed text determines an expression whose targets are no sums or conversions, and it lacks
parentheses for all others (`texts_determine_iff`).
-/

set_option autoImplicit false

namespace StructuredBasic.Target

/-! ## Expressions and their grouped texts -/

/-- The marks that stand between the names in a text. -/
def isMark (c : Char) : Bool := [' ', '.', ',', '(', ')', '[', ']'].contains c

/-- The marks behind the name of a type, which may have dots in it. -/
def endsType (c : Char) : Bool := [' ', ',', '(', ')', '[', ']'].contains c

/-- A name is not empty and has no marks in it, as is the case for letters and digits. -/
structure IsName (name : String) : Prop where
  nonempty : name.toList ≠ []
  plain : ∀ c ∈ name.toList, isMark c = false

theorem isName_iff {name : String} :
    (!name.toList.isEmpty && name.toList.all (!isMark ·)) = true ↔ IsName name := by
  simp only [Bool.and_eq_true, Bool.not_eq_true', List.isEmpty_eq_false_iff, List.all_eq_true]
  exact ⟨fun h => ⟨h.1, h.2⟩, fun h => ⟨h.nonempty, h.plain⟩⟩

instance (name : String) : Decidable (IsName name) := decidable_of_iff _ isName_iff

/-- Expressions of names, sums, fields, indices, calls of methods of a target and conversions to
named types. -/
inductive Expr.Simple : Expr → Prop
  | ident {name : String} (h : IsName name) : Simple (.ident name)
  | sum {left right : Expr} (hl : Simple left) (hr : Simple right) :
      Simple (.binary .add left right)
  | field {target : Expr} {name : String} (ht : Simple target) (h : IsName name) :
      Simple (.field target name)
  | index {target : Expr} {indices : List Expr} (ht : Simple target)
      (hi : ∀ i ∈ indices, Simple i) : Simple (.index target indices)
  | call {target : Expr} {method : String} {args : List Expr} (ht : Simple target)
      (h : IsName method) (ha : ∀ a ∈ args, Simple a) : Simple (.invoke (some target) method args)
  | convert {type : String} {operand : Expr} (h : ∀ c ∈ type.toList, endsType c = false)
      (ho : Simple operand) : Simple (.cast .convert (.named type) operand)

mutual

/-- The text of a simple expression with its targets in parentheses where operands are. -/
def Expr.grouped : Expr → String
  | .field target name => operandText target.isCompound (Expr.grouped target) ++ "." ++ name
  | .index target indices =>
    operandText target.isCompound (Expr.grouped target) ++
      "[" ++ commaList (Expr.groupedAll indices) ++ "]"
  | .invoke (some target) method args =>
    operandText target.isCompound (Expr.grouped target) ++ "." ++ method ++
      "(" ++ commaList (Expr.groupedAll args) ++ ")"
  | .cast .convert type operand =>
    "(" ++ type.text ++ ")" ++ operandText operand.isCompound (Expr.grouped operand)
  | .binary op left right =>
    operandText left.isCompound (Expr.grouped left) ++ " " ++ op.text ++ " " ++
      operandText right.isCompound (Expr.grouped right)
  | value => value.text

def Expr.groupedAll : List Expr → List String
  | [] => []
  | value :: rest => Expr.grouped value :: Expr.groupedAll rest

end

mutual

/-- The number of the targets inside a simple expression that are sums or conversions. -/
def Expr.compoundTargets : Expr → Nat
  | .field target _ => target.isCompound.toNat + Expr.compoundTargets target
  | .index target indices =>
    target.isCompound.toNat + Expr.compoundTargets target + Expr.compoundTargetsAll indices
  | .invoke (some target) _ args =>
    target.isCompound.toNat + Expr.compoundTargets target + Expr.compoundTargetsAll args
  | .cast _ _ operand => Expr.compoundTargets operand
  | .binary _ left right => Expr.compoundTargets left + Expr.compoundTargets right
  | _ => 0

def Expr.compoundTargetsAll : List Expr → Nat
  | [] => 0
  | value :: rest => Expr.compoundTargets value + Expr.compoundTargetsAll rest

end

/-! ## Reading -/

namespace Reader

/-- What has been begun and waits for an expression: a sum, a conversion, an expression in
parentheses, or the items of a list. -/
inductive Frame where
  | plus (left : Expr)
  | cast (type : String)
  | group
  | items (close : Char) (build : List Expr → Expr) (done : List Expr)

/-- The sum or conversion that ends with an expression, and what still waits. -/
def complete (value : Expr) : List Frame → Expr × List Frame
  | .plus left :: frames => (.binary .add left value, frames)
  | .cast type :: frames => (.cast .convert (.named type) value, frames)
  | frames => (value, frames)

/-- The first mark that can not stand in the name of a type. -/
def firstStop (chars : List Char) : Option Char := (chars.dropWhile (!endsType ·)).head?

/-- A closing mark ends a list without items. -/
def closeEmpty? (mark : Char) : List Frame → Option (Expr × List Frame)
  | .items close build [] :: frames => if mark = close then some (build [], frames) else none
  | _ => none

/-- A closing mark behind an expression ends what is in parentheses, or a list. -/
def close? (mark : Char) (value : Expr) (frames : List Frame) : Option (Expr × List Frame) :=
  match complete value frames with
  | (whole, .group :: frames) => if mark = ')' then some (whole, frames) else none
  | (item, .items close build done :: frames) =>
    if mark = close then some (build (done ++ [item]), frames) else none
  | _ => none

/-- A comma ends an item of a list. -/
def nextItem? (value : Expr) (frames : List Frame) : Option (List Frame) :=
  match complete value frames with
  | (item, .items close build done :: frames) =>
    some (.items close build (done ++ [item]) :: frames)
  | _ => none

/-- What is still to be read, the expression in front of it if there is one, and what has been
begun. -/
structure State where
  chars : List Char
  value : Option Expr
  frames : List Frame

/-- One step, which takes a name or a mark with what belongs to it. A parenthesis in front of an
expression is that of a conversion if the name of a type and another parenthesis follow. -/
def step : State → Option State
  | ⟨c :: rest, none, frames⟩ =>
    if c = '(' then
      if firstStop rest = some ')' then
        some ⟨(rest.dropWhile (!endsType ·)).tail, none,
          .cast (String.ofList (rest.takeWhile (!endsType ·))) :: frames⟩
      else some ⟨rest, none, .group :: frames⟩
    else if isMark c then (closeEmpty? c frames).map fun closed => ⟨rest, some closed.1, closed.2⟩
    else
      some ⟨rest.dropWhile (!isMark ·),
        some (.ident (String.ofList (c :: rest.takeWhile (!isMark ·)))), frames⟩
  | ⟨' ' :: '+' :: ' ' :: rest, some value, frames⟩ => some ⟨rest, none, .plus value :: frames⟩
  | ⟨'.' :: rest, some value, frames⟩ =>
    let after := rest.dropWhile (!isMark ·)
    let name := String.ofList (rest.takeWhile (!isMark ·))
    if after.head? = some '(' then
      some ⟨after.tail, none, .items ')' (.invoke (some value) name) [] :: frames⟩
    else some ⟨after, some (.field value name), frames⟩
  | ⟨'[' :: rest, some value, frames⟩ =>
    some ⟨rest, none, .items ']' (.index value) [] :: frames⟩
  | ⟨',' :: ' ' :: rest, some value, frames⟩ =>
    (nextItem? value frames).map fun waiting => ⟨rest, none, waiting⟩
  | ⟨c :: rest, some value, frames⟩ =>
    (close? c value frames).map fun closed => ⟨rest, some closed.1, closed.2⟩
  | ⟨[], _, _⟩ => none

theorem length_tail_dropWhile_le (p : Char → Bool) (rest : List Char) :
    (rest.dropWhile p).tail.length ≤ rest.length :=
  ((List.tail_sublist _).trans (List.dropWhile_sublist p)).length_le

/-- Every step takes something of the text. -/
theorem step_length {s next : State} (h : step s = some next) :
    next.chars.length < s.chars.length := by
  unfold step at h
  split at h
  case h_1 c rest frames =>
    split at h
    · split at h <;> cases h
      · exact Nat.lt_succ_of_le (length_tail_dropWhile_le _ rest)
      · exact Nat.lt_succ_self _
    · split at h
      · obtain ⟨closed, -, rfl⟩ := Option.map_eq_some_iff.1 h
        exact Nat.lt_succ_self _
      · cases h
        exact Nat.lt_succ_of_le (List.dropWhile_sublist _).length_le
  case h_2 rest value frames =>
    cases h
    simp only [List.length_cons]
    omega
  case h_3 rest value frames =>
    dsimp only at h
    split at h <;> cases h
    · exact Nat.lt_succ_of_le (length_tail_dropWhile_le _ rest)
    · exact Nat.lt_succ_of_le (List.dropWhile_sublist _).length_le
  case h_4 rest value frames =>
    cases h
    exact Nat.lt_succ_self _
  case h_5 rest value frames =>
    obtain ⟨waiting, -, rfl⟩ := Option.map_eq_some_iff.1 h
    simp only [List.length_cons]
    omega
  case h_6 c rest value frames _ _ _ _ =>
    obtain ⟨closed, -, rfl⟩ := Option.map_eq_some_iff.1 h
    exact Nat.lt_succ_self _
  case h_7 => cases h

/-- The expression at the end of a text, where nothing waits. -/
def State.result? (s : State) : Option Expr :=
  match s.chars, s.value with
  | [], some value =>
    match complete value s.frames with
    | (whole, []) => some whole
    | _ => none
  | _, _ => none

set_option linter.unusedVariables false in
/-- Steps for as long as there is one, and reads off the expression at the end. -/
def run (s : State) : Option Expr :=
  match h : step s with
  | some next => run next
  | none => s.result?
termination_by s.chars.length
decreasing_by exact step_length h

theorem run_of_step {s next : State} (h : step s = some next) : run s = run next := by
  rw [run]
  split
  · next other hother =>
    cases h.symm.trans hother
    rfl
  · next hnone => cases h.symm.trans hnone

/-- At the end of a text, the sum or conversion that waits is the whole. -/
theorem run_end {value whole : Expr} {waiting : List Frame}
    (h : complete value waiting = (whole, [])) : run ⟨[], some value, waiting⟩ = some whole := by
  rw [run]
  show State.result? _ = _
  unfold State.result?
  dsimp only
  rw [h]

/-! ## Steps of the reader -/

/-- What may stand behind an expression: nothing, or a mark that opens no call. -/
def Follows (rest : List Char) : Prop := ∀ c ∈ rest.head?, isMark c = true ∧ c ≠ '('

section Steps

variable {frames : List Frame} {rest : List Char} {value : Expr}

/-- A name ends where a mark follows. -/
theorem word_name {name : String} (h : IsName name) (rest : List Char)
    (hrest : ∀ c ∈ rest.head?, isMark c = true) :
    (name.toList ++ rest).takeWhile (!isMark ·) = name.toList ∧
      (name.toList ++ rest).dropWhile (!isMark ·) = rest := by
  have hname : ∀ c ∈ name.toList, (!isMark c) = true := fun c hc => by rw [h.plain c hc]; rfl
  have hmark : ∀ c ∈ rest.head?, (!isMark c) = false := fun c hc => by rw [hrest c hc]; rfl
  exact ⟨Text.takeWhile_word hname hmark, Text.dropWhile_word hname hmark⟩

theorem run_name {name : String} (h : IsName name) (hrest : Follows rest) :
    run ⟨name.toList ++ rest, none, frames⟩ = run ⟨rest, some (.ident name), frames⟩ := by
  obtain ⟨hname, hafter⟩ := word_name h rest fun c hc => (hrest c hc).1
  obtain ⟨c, chars, hchars⟩ := List.exists_cons_of_ne_nil h.nonempty
  have hplain : isMark c = false := h.plain c (by rw [hchars]; exact List.mem_cons_self)
  have hopen : c ≠ '(' := by rintro rfl; cases hplain
  rw [hchars, List.cons_append, List.takeWhile_cons_of_pos (by simp [hplain])] at hname
  rw [hchars, List.cons_append, List.dropWhile_cons_of_pos (by simp [hplain])] at hafter
  refine run_of_step ?_
  unfold step
  rw [hchars, List.cons_append]
  dsimp only
  rw [if_neg hopen, hplain, if_neg Bool.false_ne_true, hname, hafter, ← hchars,
    String.ofList_toList]

theorem step_open (text : List Char) :
    step ⟨'(' :: text, none, frames⟩ =
      if firstStop text = some ')' then
        some ⟨(text.dropWhile (!endsType ·)).tail, none,
          .cast (String.ofList (text.takeWhile (!endsType ·))) :: frames⟩
      else some ⟨text, none, .group :: frames⟩ := rfl

theorem run_convert {type : String} (h : ∀ c ∈ type.toList, endsType c = false) :
    run ⟨'(' :: (type.toList ++ ')' :: rest), none, frames⟩ =
      run ⟨rest, none, .cast type :: frames⟩ := by
  have htype : ∀ c ∈ type.toList, (!endsType c) = true := fun c hc => by rw [h c hc]; rfl
  have hmark : ∀ c ∈ (')' :: rest).head?, (!endsType c) = false := by rintro c ⟨⟩; rfl
  refine run_of_step ?_
  rw [step_open, firstStop, Text.takeWhile_word htype hmark, Text.dropWhile_word htype hmark,
    String.ofList_toList]
  rfl

theorem run_group {text : List Char} (h : firstStop text ≠ some ')') :
    run ⟨'(' :: text, none, frames⟩ = run ⟨text, none, .group :: frames⟩ :=
  run_of_step ((step_open text).trans (if_neg h))

theorem run_plus (text : List Char) :
    run ⟨' ' :: '+' :: ' ' :: text, some value, frames⟩ = run ⟨text, none, .plus value :: frames⟩ :=
  run_of_step rfl

theorem step_dot (text : List Char) :
    step ⟨'.' :: text, some value, frames⟩ =
      let after := text.dropWhile (!isMark ·)
      let name := String.ofList (text.takeWhile (!isMark ·))
      if after.head? = some '(' then
        some ⟨after.tail, none, .items ')' (.invoke (some value) name) [] :: frames⟩
      else some ⟨after, some (.field value name), frames⟩ := rfl

theorem run_field {name : String} (h : IsName name) (hrest : Follows rest) :
    run ⟨'.' :: (name.toList ++ rest), some value, frames⟩ =
      run ⟨rest, some (.field value name), frames⟩ := by
  obtain ⟨hname, hafter⟩ := word_name h rest fun c hc => (hrest c hc).1
  refine run_of_step ?_
  rw [step_dot, hname, hafter, String.ofList_toList]
  exact if_neg fun hcall => (hrest '(' hcall).2 rfl

theorem run_call {name : String} (h : IsName name) :
    run ⟨'.' :: (name.toList ++ '(' :: rest), some value, frames⟩ =
      run ⟨rest, none, .items ')' (.invoke (some value) name) [] :: frames⟩ := by
  obtain ⟨hname, hafter⟩ := word_name h ('(' :: rest) (by rintro c ⟨⟩; rfl)
  refine run_of_step ?_
  rw [step_dot, hname, hafter, String.ofList_toList]
  rfl

theorem run_index (text : List Char) :
    run ⟨'[' :: text, some value, frames⟩ =
      run ⟨text, none, .items ']' (.index value) [] :: frames⟩ :=
  run_of_step rfl

theorem run_comma {waiting : List Frame} {item : Expr} {close : Char} {build : List Expr → Expr}
    {done : List Expr} (h : complete value waiting = (item, .items close build done :: frames))
    (text : List Char) :
    run ⟨',' :: ' ' :: text, some value, waiting⟩ =
      run ⟨text, none, .items close build (done ++ [item]) :: frames⟩ := by
  refine run_of_step ?_
  show Option.map _ (nextItem? value waiting) = _
  rw [nextItem?, h]
  rfl

theorem run_closeGroup {waiting : List Frame} {whole : Expr}
    (h : complete value waiting = (whole, .group :: frames)) :
    run ⟨')' :: rest, some value, waiting⟩ = run ⟨rest, some whole, frames⟩ := by
  refine run_of_step ?_
  show Option.map _ (close? ')' value waiting) = _
  rw [close?, h]
  rfl

theorem run_closeItems {waiting : List Frame} {item : Expr} {close : Char}
    {build : List Expr → Expr} {done : List Expr} (hclose : close = ')' ∨ close = ']')
    (h : complete value waiting = (item, .items close build done :: frames)) :
    run ⟨close :: rest, some value, waiting⟩ =
      run ⟨rest, some (build (done ++ [item])), frames⟩ := by
  have hclosed : close? close value waiting = some (build (done ++ [item]), frames) := by
    rw [close?, h]
    exact if_pos rfl
  refine run_of_step ?_
  rcases hclose with rfl | rfl
  all_goals
    show Option.map _ (close? _ value waiting) = _
    rw [hclosed]
    rfl

theorem run_closeEmpty {close : Char} {build : List Expr → Expr}
    (hclose : close = ')' ∨ close = ']') :
    run ⟨close :: rest, none, .items close build [] :: frames⟩ =
      run ⟨rest, some (build []), frames⟩ := by
  refine run_of_step ?_
  rcases hclose with rfl | rfl <;> rfl

end Steps

end Reader

/-! ## Reading grouped texts -/

open Reader

/-- The expression that a text reads as. -/
def read? (text : String) : Option Expr := run ⟨text.toList, none, []⟩

/-- An expression as it stands in front of a mark or beside a sum. -/
def Expr.operandChars (e : Expr) : List Char := (operandText e.isCompound e.grouped).toList

/-- The text of the items of a list, separated by commas. -/
def itemChars (es : List Expr) : List Char := (commaList (Expr.groupedAll es)).toList

namespace Reader

/-- The sums and conversions that wait end in front of what has been begun around them. -/
def Closed (frames : List Frame) : Prop := ∀ value, complete value frames = (value, frames)

/-- The reader gets an expression from its grouped text, wherever that stands. -/
structure Reads (e : Expr) : Prop where
  operand : ∀ (rest : List Char) (frames : List Frame), Follows rest →
    run ⟨e.operandChars ++ rest, none, frames⟩ = run ⟨rest, some e, frames⟩
  whole : ∀ (rest : List Char) (frames : List Frame), Follows rest → Closed frames →
    ∃ value waiting,
      run ⟨e.grouped.toList ++ rest, none, frames⟩ = run ⟨rest, some value, waiting⟩ ∧
        complete value waiting = (e, frames)

section Reading

variable {e : Expr} {rest : List Char} {frames : List Frame}

theorem follows_cons {c : Char} (h : isMark c = true) (hc : c ≠ '(') : Follows (c :: rest) := by
  rintro d ⟨⟩
  exact ⟨h, hc⟩

theorem operandChars_plain (h : e.isCompound = false) : e.operandChars = e.grouped.toList := by
  rw [Expr.operandChars, h]
  rfl

theorem operandChars_compound (h : e.isCompound = true) :
    e.operandChars = '(' :: (e.grouped.toList ++ [')']) := by
  rw [Expr.operandChars, h]
  simp [operandText]

theorem Reads.of_plain (hplain : e.isCompound = false)
    (h : ∀ (rest : List Char) (frames : List Frame), Follows rest →
      run ⟨e.grouped.toList ++ rest, none, frames⟩ = run ⟨rest, some e, frames⟩) : Reads e where
  operand rest frames hrest := by
    rw [operandChars_plain hplain]
    exact h rest frames hrest
  whole rest frames hrest hclosed := ⟨e, frames, h rest frames hrest, hclosed e⟩

/-- A compound expression reads in parentheses, if these do not look like those of a type. -/
theorem Reads.of_compound (hcompound : e.isCompound = true)
    (hopens : ∀ rest : List Char, firstStop (e.grouped.toList ++ rest) ≠ some ')')
    (h : ∀ (rest : List Char) (frames : List Frame), Follows rest → Closed frames →
      ∃ value waiting,
        run ⟨e.grouped.toList ++ rest, none, frames⟩ = run ⟨rest, some value, waiting⟩ ∧
          complete value waiting = (e, frames)) : Reads e where
  operand rest frames _ := by
    obtain ⟨value, waiting, hrun, hvalue⟩ :=
      h (')' :: rest) (.group :: frames) (follows_cons rfl (by decide)) fun _ => rfl
    rw [operandChars_compound hcompound, List.cons_append, List.append_assoc, List.singleton_append,
      run_group (hopens _), hrun, run_closeGroup hvalue]
  whole := h

/-! ### Lists -/

theorem itemChars_cons (e next : Expr) (es : List Expr) :
    itemChars (e :: next :: es) = e.grouped.toList ++ (',' :: ' ' :: itemChars (next :: es)) := by
  show (e.grouped ++ ", " ++ commaList (Expr.groupedAll (next :: es))).toList = _
  simp [itemChars]

theorem run_items {close : Char} {build : List Expr → Expr} (hclose : close = ')' ∨ close = ']')
    {es : List Expr} (he : Reads e) (hes : ∀ e ∈ es, Reads e) (done : List Expr) :
    run ⟨itemChars (e :: es) ++ close :: rest, none, .items close build done :: frames⟩ =
      run ⟨rest, some (build (done ++ e :: es)), frames⟩ := by
  have hmark : isMark close = true ∧ close ≠ '(' := by
    rcases hclose with rfl | rfl <;> exact ⟨rfl, by decide⟩
  induction es generalizing e done with
  | nil =>
    obtain ⟨value, waiting, hrun, hvalue⟩ := he.whole (close :: rest)
      (.items close build done :: frames) (follows_cons hmark.1 hmark.2) fun _ => rfl
    have hchars : itemChars [e] = e.grouped.toList := rfl
    rw [hchars, hrun, run_closeItems hclose hvalue]
  | cons next es ih =>
    obtain ⟨hnext, hes⟩ := List.forall_mem_cons.1 hes
    obtain ⟨value, waiting, hrun, hvalue⟩ := he.whole
      (',' :: ' ' :: (itemChars (next :: es) ++ close :: rest))
      (.items close build done :: frames) (follows_cons rfl (by decide)) fun _ => rfl
    rw [itemChars_cons, List.append_assoc, List.cons_append, List.cons_append, hrun,
      run_comma hvalue, ih hnext hes, List.append_assoc, List.singleton_append]

theorem run_list {close : Char} {build : List Expr → Expr} (hclose : close = ')' ∨ close = ']')
    {es : List Expr} (hes : ∀ e ∈ es, Reads e) :
    run ⟨itemChars es ++ close :: rest, none, .items close build [] :: frames⟩ =
      run ⟨rest, some (build es), frames⟩ := by
  cases es with
  | nil => exact run_closeEmpty hclose
  | cons e es =>
    obtain ⟨he, hes⟩ := List.forall_mem_cons.1 hes
    exact run_items hclose he hes []

/-! ### Forms -/

theorem grouped_field (target : Expr) (name : String) :
    (Expr.field target name).grouped.toList = target.operandChars ++ '.' :: name.toList := by
  show (operandText target.isCompound target.grouped ++ "." ++ name).toList = _
  simp [Expr.operandChars]

theorem grouped_index (target : Expr) (indices : List Expr) :
    (Expr.index target indices).grouped.toList =
      target.operandChars ++ '[' :: (itemChars indices ++ [']']) := by
  show (operandText target.isCompound target.grouped ++
    "[" ++ commaList (Expr.groupedAll indices) ++ "]").toList = _
  simp [Expr.operandChars, itemChars]

theorem grouped_call (target : Expr) (method : String) (args : List Expr) :
    (Expr.invoke (some target) method args).grouped.toList =
      target.operandChars ++ '.' :: (method.toList ++ '(' :: (itemChars args ++ [')'])) := by
  show (operandText target.isCompound target.grouped ++ "." ++ method ++
    "(" ++ commaList (Expr.groupedAll args) ++ ")").toList = _
  simp [Expr.operandChars, itemChars]

theorem grouped_convert (type : String) (operand : Expr) :
    (Expr.cast .convert (.named type) operand).grouped.toList =
      '(' :: (type.toList ++ ')' :: operand.operandChars) := by
  show ("(" ++ type ++ ")" ++ operandText operand.isCompound operand.grouped).toList = _
  simp [Expr.operandChars]

theorem grouped_sum (left right : Expr) :
    (Expr.binary .add left right).grouped.toList =
      left.operandChars ++ ' ' :: '+' :: ' ' :: right.operandChars := by
  show (operandText left.isCompound left.grouped ++ " " ++ "+" ++ " " ++
    operandText right.isCompound right.grouped).toList = _
  simp [Expr.operandChars]

theorem firstStop_name {name : String} (h : IsName name) :
    firstStop (name.toList ++ rest) = firstStop rest := by
  rw [firstStop, List.dropWhile_append_of_pos, firstStop]
  intro c hc
  have hplain := h.plain c hc
  simp_all [isMark, endsType]

/-- Before the text of an operand ends, only a parenthesis or a bracket opens. -/
theorem firstStop_operand (h : e.Simple) (rest : List Char) :
    firstStop (e.operandChars ++ rest) = some '(' ∨ firstStop (e.operandChars ++ rest) = some '[' ∨
      firstStop (e.operandChars ++ rest) = firstStop rest := by
  induction h generalizing rest with
  | ident h => exact Or.inr (Or.inr (firstStop_name h))
  | sum | convert =>
    rw [operandChars_compound rfl]
    exact Or.inl rfl
  | @field target name _ h ih =>
    rw [operandChars_plain rfl, grouped_field, List.append_assoc]
    have hrest : firstStop ('.' :: name.toList ++ rest) = firstStop rest := firstStop_name h
    rw [← hrest]
    exact ih _
  | @index target indices _ _ ih =>
    rw [operandChars_plain rfl, grouped_index, List.append_assoc]
    have hrest : firstStop ('[' :: (itemChars indices ++ [']']) ++ rest) = some '[' := rfl
    rcases ih ('[' :: (itemChars indices ++ [']']) ++ rest) with h | h | h
    · exact Or.inl h
    · exact Or.inr (Or.inl h)
    · exact Or.inr (Or.inl (h.trans hrest))
  | @call target method args _ h _ ih =>
    rw [operandChars_plain rfl, grouped_call, List.append_assoc]
    have hrest : firstStop
        ('.' :: (method.toList ++ '(' :: (itemChars args ++ [')'])) ++ rest) = some '(' := by
      rw [List.cons_append, List.append_assoc]
      exact firstStop_name h
    rcases ih ('.' :: (method.toList ++ '(' :: (itemChars args ++ [')'])) ++ rest) with h | h | h
    · exact Or.inl h
    · exact Or.inr (Or.inl h)
    · exact Or.inl (h.trans hrest)

theorem Reads.mark {c : Char} (h : Reads e) (hmark : isMark c = true) (hc : c ≠ '(')
    (rest : List Char) (frames : List Frame) :
    run ⟨e.operandChars ++ c :: rest, none, frames⟩ = run ⟨c :: rest, some e, frames⟩ :=
  h.operand _ _ (follows_cons hmark hc)

theorem reads_sum {left right : Expr} (hsimple : left.Simple) (hl : Reads left)
    (hr : Reads right) : Reads (.binary .add left right) := by
  refine .of_compound rfl (fun rest => ?_) fun rest frames hrest _ => ?_
  · -- the first mark is the one behind the left operand, unless something opens before
    have hplus : firstStop (' ' :: '+' :: ' ' :: right.operandChars ++ rest) = some ' ' := rfl
    rw [grouped_sum, List.append_assoc]
    rcases firstStop_operand hsimple (' ' :: '+' :: ' ' :: right.operandChars ++ rest)
      with h | h | h
    · rw [h]; decide
    · rw [h]; decide
    · rw [h, hplus]; decide
  · refine ⟨right, .plus left :: frames, ?_, rfl⟩
    rw [grouped_sum, List.append_assoc, List.cons_append, List.cons_append, List.cons_append,
      hl.mark rfl (by decide), run_plus, hr.operand _ _ hrest]

theorem reads_convert {type : String} {operand : Expr}
    (h : ∀ c ∈ type.toList, endsType c = false) (ho : Reads operand) :
    Reads (.cast .convert (.named type) operand) := by
  refine .of_compound rfl (fun rest => ?_) fun rest frames hrest _ => ?_
  · have hopen : firstStop ('(' :: (type.toList ++ ')' :: operand.operandChars) ++ rest) =
        some '(' := rfl
    rw [grouped_convert, hopen]
    decide
  · refine ⟨operand, .cast type :: frames, ?_, rfl⟩
    rw [grouped_convert, List.cons_append, List.append_assoc, List.cons_append, run_convert h,
      ho.operand _ _ hrest]

theorem reads_field {target : Expr} {name : String} (ht : Reads target) (h : IsName name) :
    Reads (.field target name) := by
  refine .of_plain rfl fun rest frames hrest => ?_
  rw [grouped_field, List.append_assoc, List.cons_append, ht.mark rfl (by decide),
    run_field h hrest]

theorem reads_index {target : Expr} {indices : List Expr} (ht : Reads target)
    (hi : ∀ i ∈ indices, Reads i) : Reads (.index target indices) := by
  refine .of_plain rfl fun rest frames _ => ?_
  rw [grouped_index, List.append_assoc, List.cons_append, ht.mark rfl (by decide),
    List.append_assoc, List.singleton_append, run_index, run_list (Or.inr rfl) hi]

theorem reads_call {target : Expr} {method : String} {args : List Expr} (ht : Reads target)
    (h : IsName method) (ha : ∀ a ∈ args, Reads a) : Reads (.invoke (some target) method args) := by
  refine .of_plain rfl fun rest frames _ => ?_
  rw [grouped_call, List.append_assoc, List.cons_append, ht.mark rfl (by decide),
    List.append_assoc, List.cons_append, List.append_assoc, List.singleton_append, run_call h,
    run_list (Or.inl rfl) ha]

theorem reads_simple (h : e.Simple) : Reads e := by
  induction h with
  | ident h => exact .of_plain rfl fun rest frames hrest => run_name h hrest
  | sum hl _ ihl ihr => exact reads_sum hl ihl ihr
  | field _ h iht => exact reads_field iht h
  | index _ _ iht ihi => exact reads_index iht ihi
  | call _ h _ iht iha => exact reads_call iht h iha
  | convert h _ iho => exact reads_convert h iho

end Reading

end Reader

theorem read_grouped {e : Expr} (h : e.Simple) : read? e.grouped = some e := by
  obtain ⟨value, waiting, hrun, hvalue⟩ := (reads_simple h).whole [] [] nofun fun _ => rfl
  rw [List.append_nil] at hrun
  rw [read?, hrun, run_end hvalue]

/-- Grouped texts of different expressions differ. -/
theorem grouped_injective {e e' : Expr} (h : e.Simple) (h' : e'.Simple) :
    e.grouped = e'.grouped ↔ e = e' := by
  refine ⟨fun heq => ?_, fun heq => by rw [heq]⟩
  rw [← Option.some_inj, ← read_grouped h, ← read_grouped h', heq]

/-! ## Printed and grouped texts -/

theorem operandText_length (isCompound : Bool) (text : String) :
    (operandText isCompound text).length = text.length + 2 * isCompound.toNat := by
  cases isCompound with
  | false => rfl
  | true =>
    have hopen : "(".length = 1 := rfl
    have hclose : ")".length = 1 := rfl
    rw [operandText, if_pos rfl, String.length_append, String.length_append, hopen, hclose]
    simp only [Bool.toNat_true]
    omega

/-- Two texts of a list whose items differ by parentheses. -/
theorem commaList_length {es : List Expr}
    (h : ∀ e ∈ es, e.grouped.length = e.text.length + 2 * e.compoundTargets) :
    (commaList (Expr.groupedAll es)).length =
      (commaList (Expr.texts es)).length + 2 * Expr.compoundTargetsAll es := by
  induction es with
  | nil => rfl
  | cons e es ih =>
    obtain ⟨he, hes⟩ := List.forall_mem_cons.1 h
    cases es with
    | nil => simp [Expr.groupedAll, Expr.texts, Expr.compoundTargetsAll, commaList, he]
    | cons next es =>
      have hrest := ih hes
      simp only [Expr.groupedAll, Expr.texts, Expr.compoundTargetsAll, commaList,
        String.length_append] at hrest ⊢
      omega

/-- Grouping adds a pair of parentheses for each target that is a sum or a conversion. -/
theorem grouped_length {e : Expr} (h : e.Simple) :
    e.grouped.length = e.text.length + 2 * e.compoundTargets := by
  induction h with
  | ident => rfl
  | sum _ _ ihl ihr =>
    simp only [Expr.grouped, Expr.text, Expr.compoundTargets, String.length_append,
      operandText_length]
    omega
  | field _ _ iht =>
    simp only [Expr.grouped, Expr.text, Expr.compoundTargets, String.length_append,
      operandText_length]
    omega
  | index _ _ iht ihi =>
    have hlist := commaList_length ihi
    simp only [Expr.grouped, Expr.text, Expr.compoundTargets, String.length_append,
      operandText_length]
    omega
  | call _ _ _ iht iha =>
    have hlist := commaList_length iha
    simp only [Expr.grouped, Expr.text, Expr.receiverText, Expr.compoundTargets,
      String.length_append, operandText_length]
    omega
  | convert _ _ iho =>
    simp only [Expr.grouped, Expr.text, Expr.compoundTargets, String.length_append,
      operandText_length]
    omega

theorem operandText_of_toNat {isCompound : Bool} (h : isCompound.toNat = 0) (text : String) :
    operandText isCompound text = text := by
  cases isCompound with
  | false => rfl
  | true => cases h

theorem texts_eq_groupedAll {es : List Expr}
    (h : ∀ e ∈ es, e.compoundTargets = 0 → e.text = e.grouped)
    (hes : Expr.compoundTargetsAll es = 0) : Expr.texts es = Expr.groupedAll es := by
  induction es with
  | nil => rfl
  | cons e es ih =>
    obtain ⟨he, hrest⟩ := List.forall_mem_cons.1 h
    rw [Expr.compoundTargetsAll, Nat.add_eq_zero_iff] at hes
    rw [Expr.texts, Expr.groupedAll, he hes.1, ih hrest hes.2]

theorem text_eq_grouped {e : Expr} (h : e.Simple) (hnone : e.compoundTargets = 0) :
    e.text = e.grouped := by
  induction h with
  | ident => rfl
  | sum _ _ ihl ihr =>
    rw [Expr.compoundTargets, Nat.add_eq_zero_iff] at hnone
    rw [Expr.text, Expr.grouped, ihl hnone.1, ihr hnone.2]
  | field _ _ iht =>
    rw [Expr.compoundTargets, Nat.add_eq_zero_iff] at hnone
    rw [Expr.text, Expr.grouped, iht hnone.2, operandText_of_toNat hnone.1]
  | index _ _ iht ihi =>
    simp only [Expr.compoundTargets, Nat.add_eq_zero_iff] at hnone
    rw [Expr.text, Expr.grouped, iht hnone.1.2, operandText_of_toNat hnone.1.1,
      texts_eq_groupedAll ihi hnone.2]
  | call _ _ _ iht iha =>
    simp only [Expr.compoundTargets, Nat.add_eq_zero_iff] at hnone
    rw [Expr.text, Expr.receiverText, Expr.grouped, iht hnone.1.2, operandText_of_toNat hnone.1.1,
      texts_eq_groupedAll iha hnone.2]
  | convert _ _ iho =>
    rw [Expr.compoundTargets] at hnone
    rw [Expr.text, Expr.grouped, iho hnone]
    nofun

/-- An expression is printed with all the parentheses that its text needs exactly if no target in
it is a sum or a conversion. Texts with these parentheses determine the expression, and so do the
printed texts of expressions without such targets. -/
theorem texts_determine_iff {e e' : Expr} (h : e.Simple) (h' : e'.Simple) :
    (e.text = e.grouped ↔ e.compoundTargets = 0) ∧
      (e.grouped = e'.grouped ↔ e = e') ∧
      (e.compoundTargets = 0 → e'.compoundTargets = 0 → (e.text = e'.text ↔ e = e')) := by
  refine ⟨⟨fun heq => ?_, text_eq_grouped h⟩, grouped_injective h h', fun hnone hnone' => ?_⟩
  · have hlength := grouped_length h
    rw [heq] at hlength
    omega
  · rw [text_eq_grouped h hnone, text_eq_grouped h' hnone']
    exact grouped_injective h h'

theorem isName_a : IsName "a" := by decide

theorem isName_b : IsName "b" := by decide

def leftSum : Expr := .binary .add (.binary .add (.ident "a") (.ident "b")) (.ident "a")

def rightSum : Expr := .binary .add (.ident "a") (.binary .add (.ident "b") (.ident "a"))

/-- The two ways to add three names are printed with the parentheses that tell them apart. -/
theorem sums_differ : leftSum.Simple ∧ rightSum.Simple ∧ leftSum.compoundTargets = 0 ∧
    rightSum.compoundTargets = 0 ∧ leftSum.text ≠ rightSum.text := by
  have hleft : leftSum.Simple :=
    .sum (.sum (.ident isName_a) (.ident isName_b)) (.ident isName_a)
  have hright : rightSum.Simple :=
    .sum (.ident isName_a) (.sum (.ident isName_b) (.ident isName_a))
  refine ⟨hleft, hright, rfl, rfl, fun heq => ?_⟩
  cases ((texts_determine_iff hleft hright).2.2 rfl rfl).1 heq

/-- The field of a sum and the sum with a field are printed alike. -/
theorem target_of_field_bare :
    ∃ e e' : Expr, e.Simple ∧ e'.Simple ∧ e ≠ e' ∧ e.text = "a + b.a" ∧ e'.text = "a + b.a" := by
  refine ⟨.field (.binary .add (.ident "a") (.ident "b")) "a",
    .binary .add (.ident "a") (.field (.ident "b") "a"), ?_, ?_, nofun, ?_, ?_⟩
  · exact .field (.sum (.ident isName_a) (.ident isName_b)) isName_a
  · exact .sum (.ident isName_a) (.field (.ident isName_b) isName_a)
  · decide +kernel
  · decide +kernel

end StructuredBasic.Target
