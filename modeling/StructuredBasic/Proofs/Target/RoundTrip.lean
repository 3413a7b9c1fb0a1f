import StructuredBasic.Proofs.Target.Storable
import StructuredBasic.Target.Decode

/-!
# Programs from their serialized text

Decoding inverts serialization on storable programs: types, expressions and statements by
induction on their structure, where a decoder that looks deeper than the value nests has enough
fuel, then members and programs field by field.
-/

set_option autoImplicit false

namespace StructuredBasic.Target

open Json

/-! ## Names and texts -/

/-- A vocabulary in which every member is found by its name. -/
class Spelled (α : Type) [Named α] : Prop where
  find_name : ∀ value : α, Named.find? α (Named.name value) = some value

instance : Spelled Primitive := ⟨fun value => by cases value <;> rfl⟩
instance : Spelled Visibility := ⟨fun value => by cases value <;> rfl⟩
instance : Spelled BinaryOp := ⟨fun value => by cases value <;> rfl⟩
instance : Spelled UnaryOp := ⟨fun value => by cases value <;> rfl⟩
instance : Spelled CastKind := ⟨fun value => by cases value <;> rfl⟩
instance : Spelled CompareMode := ⟨fun value => by cases value <;> rfl⟩
instance : Spelled TypeKind := ⟨fun value => by cases value <;> rfl⟩
instance : Spelled Direction := ⟨fun value => by cases value <;> rfl⟩
instance : Spelled MethodKind := ⟨fun value => by cases value <;> rfl⟩

@[simp] theorem named?_nameJson {α : Type} [Named α] [Spelled α] (value : α) :
    (nameJson value).named? α = some value := by
  simp [named?, nameJson, Spelled.find_name]

@[simp] theorem list?_strings (values : List String) :
    (strings values).list? string? = some values :=
  list?_map fun _ _ => rfl

@[simp] theorem option?_optionalString (value : Option String) :
    (optionalString value).option? string? = some value :=
  option?_ofOption (by simp) fun _ _ => rfl

/-! ## Types -/

mutual

theorem Ty.decode_toJson (t : Ty) (h : t.storable) {fuel : Nat} (hfuel : t.toJson.depth < fuel) :
    Ty.decode fuel t.toJson = some t := by
  obtain ⟨fuel, rfl⟩ : ∃ n, fuel = n + 1 := ⟨fuel - 1, by omega⟩
  match t with
  | .void => rfl
  | .primitive type => simp [Ty.decode, Ty.toJson, Ty.ofName?]
  | .named name => simp [Ty.decode, Ty.toJson, Ty.ofName?]
  | .generic name arguments =>
    simp only [Ty.toJson, depth_tagged, depth, depthOfFields] at hfuel
    have harguments : (Json.array (Ty.listJson arguments)).list? (Ty.decode fuel) =
        some arguments := Ty.decode_listJson arguments h (by omega)
    simp [Ty.decode, Ty.toJson, Ty.ofName?, harguments]
  | .array element rank =>
    simp only [Ty.storable, Bool.and_eq_true, decide_eq_true_eq] at h
    simp only [Ty.toJson, depth_tagged, depth, depthOfFields] at hfuel
    have helement : Ty.decode fuel element.toJson = some element :=
      Ty.decode_toJson element h.1 (by omega)
    simp [Ty.decode, Ty.toJson, Ty.ofName?, helement, natBelow?_ofInt h.2]

theorem Ty.decode_listJson (ts : List Ty) (h : Ty.storableAll ts) {fuel : Nat}
    (hfuel : depthOfList (Ty.listJson ts) < fuel) :
    (Json.array (Ty.listJson ts)).list? (Ty.decode fuel) = some ts := by
  match ts with
  | [] => rfl
  | t :: ts =>
    simp only [Ty.storableAll, Bool.and_eq_true] at h
    simp only [Ty.listJson, depthOfList] at hfuel
    exact list?_cons (Ty.decode_toJson t h.1 (by omega)) (Ty.decode_listJson ts h.2 (by omega))

end

theorem Ty.ofJson?_toJson {t : Ty} (h : t.storable) : Ty.ofJson? t.toJson = some t :=
  Ty.decode_toJson t h (Nat.lt_succ_self _)

theorem Ty.ofJson?_listJson {ts : List Ty} (h : Ty.storableAll ts) :
    (Json.array (Ty.listJson ts)).list? Ty.ofJson? = some ts := by
  induction ts with
  | nil => rfl
  | cons t ts ih =>
    simp only [Ty.storableAll, Bool.and_eq_true] at h
    exact list?_cons (Ty.ofJson?_toJson h.1) (ih h.2)

/-! ## Expressions -/

theorem Literal.ofJson?_toJson {l : Literal} (h : l.storable) :
    Literal.ofJson? l.toJson = some l := by
  cases l with
  | float value => simp [Literal.storable] at h
  | _ => simp [Literal.ofJson?, Literal.toJson, char?]

theorem Expr.toJson_ne_null (e : Expr) : e.toJson ≠ .null := by
  cases e
  case arrayCreate element lengths initializer => cases initializer <;> simp [Expr.toJson, tagged]
  all_goals simp [Expr.toJson, tagged]

mutual

theorem Expr.decode_toJson (e : Expr) (h : e.storable) {fuel : Nat}
    (hfuel : e.toJson.depth < fuel) : Expr.decode fuel e.toJson = some e := by
  obtain ⟨fuel, rfl⟩ : ∃ n, fuel = n + 1 := ⟨fuel - 1, by omega⟩
  match e with
  | .literal value =>
    simp [Expr.decode, Expr.toJson, Expr.ofName?, Literal.ofJson?_toJson h]
  | .ident name =>
    simp [Expr.decode, Expr.toJson, Expr.ofName?]
  | .typeRef type =>
    simp [Expr.decode, Expr.toJson, Expr.ofName?, Ty.ofJson?_toJson h]
  | .field target name =>
    simp only [Expr.toJson, depth_tagged, depth, depthOfFields] at hfuel
    have htarget : Expr.decode fuel target.toJson = some target :=
      Expr.decode_toJson target h (by omega)
    simp [Expr.decode, Expr.toJson, Expr.ofName?, htarget]
  | .invoke target method args =>
    simp only [Expr.storable, Bool.and_eq_true] at h
    simp only [Expr.toJson, depth_tagged, depth, depthOfFields] at hfuel
    have htarget : (Expr.optionJson target).option? (Expr.decode fuel) = some target :=
      Expr.decode_optionJson target h.1 (by omega)
    have hargs : (Json.array (Expr.listJson args)).list? (Expr.decode fuel) = some args :=
      Expr.decode_listJson args h.2 (by omega)
    simp [Expr.decode, Expr.toJson, Expr.ofName?, htarget, hargs]
  | .delegateInvoke target args =>
    simp only [Expr.storable, Bool.and_eq_true] at h
    simp only [Expr.toJson, depth_tagged, depth, depthOfFields] at hfuel
    have htarget : Expr.decode fuel target.toJson = some target :=
      Expr.decode_toJson target h.1 (by omega)
    have hargs : (Json.array (Expr.listJson args)).list? (Expr.decode fuel) = some args :=
      Expr.decode_listJson args h.2 (by omega)
    simp [Expr.decode, Expr.toJson, Expr.ofName?, htarget, hargs]
  | .index target indices =>
    simp only [Expr.storable, Bool.and_eq_true] at h
    simp only [Expr.toJson, depth_tagged, depth, depthOfFields] at hfuel
    have htarget : Expr.decode fuel target.toJson = some target :=
      Expr.decode_toJson target h.1 (by omega)
    have hindices : (Json.array (Expr.listJson indices)).list? (Expr.decode fuel) = some indices :=
      Expr.decode_listJson indices h.2 (by omega)
    simp [Expr.decode, Expr.toJson, Expr.ofName?, htarget, hindices]
  | .arrayCreate element lengths initializer =>
    simp only [Expr.storable, Bool.and_eq_true] at h
    simp only [Expr.toJson_arrayCreate, depth_tagged, depth, depthOfFields] at hfuel
    have hlengths : (Json.array (Expr.listJson lengths)).list? (Expr.decode fuel) = some lengths :=
      Expr.decode_listJson lengths h.1.2 (by omega)
    have hinitializer : (elementsJson initializer).option? (fun j => j.list? (Expr.decode fuel)) =
        some initializer := Expr.decode_elementsJson initializer h.2 (by omega)
    simp [Expr.decode, Expr.toJson_arrayCreate, Expr.ofName?, Ty.ofJson?_toJson h.1.1, hlengths,
      hinitializer]
  | .objectCreate type args =>
    simp only [Expr.storable, Bool.and_eq_true] at h
    simp only [Expr.toJson, depth_tagged, depth, depthOfFields] at hfuel
    have hargs : (Json.array (Expr.listJson args)).list? (Expr.decode fuel) = some args :=
      Expr.decode_listJson args h.2 (by omega)
    simp [Expr.decode, Expr.toJson, Expr.ofName?, Ty.ofJson?_toJson h.1, hargs]
  | .cast kind type operand =>
    simp only [Expr.storable, Bool.and_eq_true] at h
    simp only [Expr.toJson, depth_tagged, depth, depthOfFields] at hfuel
    have hoperand : Expr.decode fuel operand.toJson = some operand :=
      Expr.decode_toJson operand h.2 (by omega)
    simp [Expr.decode, Expr.toJson, Expr.ofName?, Ty.ofJson?_toJson h.1, hoperand]
  | .binary op left right =>
    simp only [Expr.storable, Bool.and_eq_true] at h
    simp only [Expr.toJson, depth_tagged, depth, depthOfFields] at hfuel
    have hleft : Expr.decode fuel left.toJson = some left :=
      Expr.decode_toJson left h.1 (by omega)
    have hright : Expr.decode fuel right.toJson = some right :=
      Expr.decode_toJson right h.2 (by omega)
    simp [Expr.decode, Expr.toJson, Expr.ofName?, hleft, hright]
  | .unary op operand =>
    simp only [Expr.toJson, depth_tagged, depth, depthOfFields] at hfuel
    have hoperand : Expr.decode fuel operand.toJson = some operand :=
      Expr.decode_toJson operand h (by omega)
    simp [Expr.decode, Expr.toJson, Expr.ofName?, hoperand]
  | .typeOf type =>
    simp [Expr.decode, Expr.toJson, Expr.ofName?, Ty.ofJson?_toJson h]
  | .typeIs operand type =>
    simp only [Expr.storable, Bool.and_eq_true] at h
    simp only [Expr.toJson, depth_tagged, depth, depthOfFields] at hfuel
    have hoperand : Expr.decode fuel operand.toJson = some operand :=
      Expr.decode_toJson operand h.1 (by omega)
    simp [Expr.decode, Expr.toJson, Expr.ofName?, Ty.ofJson?_toJson h.2, hoperand]
  | .defaultOf type =>
    simp [Expr.decode, Expr.toJson, Expr.ofName?, Ty.ofJson?_toJson h]
  | .self | .base | .null => rfl
  | .methodRef target method =>
    simp only [Expr.toJson, depth_tagged, depth, depthOfFields] at hfuel
    have htarget : (Expr.optionJson target).option? (Expr.decode fuel) = some target :=
      Expr.decode_optionJson target h (by omega)
    simp [Expr.decode, Expr.toJson, Expr.ofName?, htarget]

theorem Expr.decode_optionJson (e : Option Expr) (h : Expr.storableOptional e) {fuel : Nat}
    (hfuel : (Expr.optionJson e).depth < fuel) :
    (Expr.optionJson e).option? (Expr.decode fuel) = some e := by
  match e with
  | none => rfl
  | some e => exact option?_some e.toJson_ne_null (Expr.decode_toJson e h hfuel)

theorem Expr.decode_elementsJson (es : Option (List Expr)) (h : Expr.storableElements es)
    {fuel : Nat} (hfuel : (elementsJson es).depth < fuel) :
    (elementsJson es).option? (fun j => j.list? (Expr.decode fuel)) = some es := by
  match es with
  | none => rfl
  | some es =>
    simp only [elementsJson, ofOption, depth] at hfuel
    exact option?_some nofun (Expr.decode_listJson es h (by omega))

theorem Expr.decode_listJson (es : List Expr) (h : Expr.storableAll es) {fuel : Nat}
    (hfuel : depthOfList (Expr.listJson es) < fuel) :
    (Json.array (Expr.listJson es)).list? (Expr.decode fuel) = some es := by
  match es with
  | [] => rfl
  | e :: es =>
    simp only [Expr.storableAll, Bool.and_eq_true] at h
    simp only [Expr.listJson, depthOfList] at hfuel
    exact list?_cons (Expr.decode_toJson e h.1 (by omega)) (Expr.decode_listJson es h.2 (by omega))

end

theorem Expr.ofJson?_toJson {e : Expr} (h : e.storable) : Expr.ofJson? e.toJson = some e :=
  Expr.decode_toJson e h (Nat.lt_succ_self _)

theorem Expr.ofJson?_optionJson {e : Option Expr} (h : Expr.storableOptional e) :
    (Expr.optionJson e).option? Expr.ofJson? = some e := by
  cases e with
  | none => rfl
  | some e => exact option?_some e.toJson_ne_null (Expr.ofJson?_toJson h)

/-! ## Statements -/

theorem Stmt.toJson_ne_null (s : Stmt) : s.toJson ≠ .null := by
  cases s <;> simp [Stmt.toJson, tagged]

mutual

theorem Stmt.decode_toJson (s : Stmt) (h : s.storable) {fuel : Nat}
    (hfuel : s.toJson.depth < fuel) : Stmt.decode fuel s.toJson = some s := by
  obtain ⟨fuel, rfl⟩ : ∃ n, fuel = n + 1 := ⟨fuel - 1, by omega⟩
  match s with
  | .assign target value =>
    simp only [Stmt.storable, Bool.and_eq_true] at h
    simp [Stmt.decode, Stmt.toJson, Stmt.ofName?, Expr.ofJson?_toJson h.1, Expr.ofJson?_toJson h.2]
  | .declare name type init =>
    simp only [Stmt.storable, Bool.and_eq_true] at h
    simp [Stmt.decode, Stmt.toJson, Stmt.ofName?, Ty.ofJson?_toJson h.1,
      Expr.ofJson?_optionJson h.2]
  | .conditional condition thenBody elseBody =>
    simp only [Stmt.storable, Bool.and_eq_true] at h
    simp only [Stmt.toJson, depth_tagged, depth, depthOfFields] at hfuel
    have hthen : (Json.array (Stmt.listJson thenBody)).list? (Stmt.decode fuel) = some thenBody :=
      Stmt.decode_listJson thenBody h.1.2 (by omega)
    have helse : (Json.array (Stmt.listJson elseBody)).list? (Stmt.decode fuel) = some elseBody :=
      Stmt.decode_listJson elseBody h.2 (by omega)
    simp [Stmt.decode, Stmt.toJson, Stmt.ofName?, Expr.ofJson?_toJson h.1.1, hthen, helse]
  | .iteration init test increment body =>
    simp only [Stmt.storable, Bool.and_eq_true] at h
    simp only [Stmt.toJson, depth_tagged, depth, depthOfFields] at hfuel
    have hinit : (Stmt.optionJson init).option? (Stmt.decode fuel) = some init :=
      Stmt.decode_optionJson init h.1.1.1 (by omega)
    have hincrement : (Stmt.optionJson increment).option? (Stmt.decode fuel) = some increment :=
      Stmt.decode_optionJson increment h.1.2 (by omega)
    have hbody : (Json.array (Stmt.listJson body)).list? (Stmt.decode fuel) = some body :=
      Stmt.decode_listJson body h.2 (by omega)
    simp [Stmt.decode, Stmt.toJson, Stmt.ofName?, Expr.ofJson?_toJson h.1.1.2, hinit, hincrement,
      hbody]
  | .goto target => simp [Stmt.decode, Stmt.toJson, Stmt.ofName?]
  | .label name => simp [Stmt.decode, Stmt.toJson, Stmt.ofName?]
  | .expression value =>
    simp [Stmt.decode, Stmt.toJson, Stmt.ofName?, Expr.ofJson?_toJson h]
  | .returns value =>
    simp [Stmt.decode, Stmt.toJson, Stmt.ofName?, Expr.ofJson?_optionJson h]
  | .breaks => rfl
  | .comment text => simp [Stmt.decode, Stmt.toJson, Stmt.ofName?]

theorem Stmt.decode_optionJson (s : Option Stmt) (h : Stmt.storableOptional s) {fuel : Nat}
    (hfuel : (Stmt.optionJson s).depth < fuel) :
    (Stmt.optionJson s).option? (Stmt.decode fuel) = some s := by
  match s with
  | none => rfl
  | some s => exact option?_some s.toJson_ne_null (Stmt.decode_toJson s h hfuel)

theorem Stmt.decode_listJson (ss : List Stmt) (h : Stmt.storableAll ss) {fuel : Nat}
    (hfuel : depthOfList (Stmt.listJson ss) < fuel) :
    (Json.array (Stmt.listJson ss)).list? (Stmt.decode fuel) = some ss := by
  match ss with
  | [] => rfl
  | s :: ss =>
    simp only [Stmt.storableAll, Bool.and_eq_true] at h
    simp only [Stmt.listJson, depthOfList] at hfuel
    exact list?_cons (Stmt.decode_toJson s h.1 (by omega)) (Stmt.decode_listJson ss h.2 (by omega))

end

theorem Stmt.ofJson?_listJson {ss : List Stmt} (h : Stmt.storableAll ss) :
    (Json.array (Stmt.listJson ss)).list? Stmt.ofJson? = some ss := by
  induction ss with
  | nil => rfl
  | cons s ss ih =>
    simp only [Stmt.storableAll, Bool.and_eq_true] at h
    exact list?_cons (Stmt.decode_toJson s h.1 (Nat.lt_succ_self _)) (ih h.2)

/-! ## Members -/

theorem Field.ofJson?_toJson {f : Field} (h : f.storable) : Field.ofJson? f.toJson = some f := by
  simp only [Field.storable, Bool.and_eq_true] at h
  simp [Field.ofJson?, Field.toJson, record?, text?, texts?, flag?, visibility?,
    Ty.ofJson?_toJson h.1, Expr.ofJson?_optionJson h.2]

theorem Parameter.ofJson?_toJson {p : Parameter} (h : p.storable) :
    Parameter.ofJson? p.toJson = some p := by
  simp only [Parameter.storable, Bool.and_eq_true] at h
  simp [Parameter.ofJson?, Parameter.toJson, record?, text?, flag?, Ty.ofJson?_toJson h.1,
    Expr.ofJson?_optionJson h.2]

theorem list?_parameters {ps : List Parameter} (h : ps.all Parameter.storable) :
    (Json.ofList Parameter.toJson ps).list? Parameter.ofJson? = some ps :=
  list?_map fun p hp => Parameter.ofJson?_toJson (List.all_eq_true.mp h p hp)

theorem Entry.ofJson?_toJson (e : Entry) : Entry.ofJson? e.toJson = some e := by
  simp [Entry.ofJson?, Entry.toJson, record?, text?]

theorem Method.ofJson?_toJson {m : Method} (h : m.storable) : Method.ofJson? m.toJson = some m := by
  simp only [Method.storable, Bool.and_eq_true] at h
  have hentry : (ofOption Entry.toJson m.entry).option? Entry.ofJson? = some m.entry :=
    option?_ofOption (by simp [Entry.toJson]) fun e _ => Entry.ofJson?_toJson e
  simp [Method.ofJson?, Method.toJson, record?, text?, texts?, flag?, visibility?,
    list?_parameters h.1.1, Ty.ofJson?_toJson h.1.2, Stmt.ofJson?_listJson h.2, hentry]

theorem option?_bodyJson {body : Option (List Stmt)} (h : body.all Stmt.storableAll) :
    (bodyJson body).option? (list? Stmt.ofJson?) = some body := by
  cases body with
  | none => rfl
  | some body => exact option?_some nofun (Stmt.ofJson?_listJson h)

theorem Property.ofJson?_toJson {p : Property} (h : p.storable) :
    Property.ofJson? p.toJson = some p := by
  simp only [Property.storable, Bool.and_eq_true] at h
  simp [Property.ofJson?, Property.toJson, record?, text?, texts?, flag?, visibility?,
    Ty.ofJson?_toJson h.1.1.1, list?_parameters h.1.1.2, option?_bodyJson h.1.2,
    option?_bodyJson h.2]

theorem EnumMember.ofJson?_toJson {m : EnumMember} (h : m.storable) :
    EnumMember.ofJson? m.toJson = some m := by
  simp [EnumMember.ofJson?, EnumMember.toJson, record?, text?, Expr.ofJson?_optionJson h]

theorem Ty.toJson_ne_null (t : Ty) : t.toJson ≠ .null := by
  cases t <;> simp [Ty.toJson, tagged]

theorem Enumeration.ofJson?_toJson {e : Enumeration} (h : e.storable) :
    Enumeration.ofJson? e.toJson = some e := by
  simp only [Enumeration.storable, Bool.and_eq_true] at h
  have hunderlying : (ofOption Ty.toJson e.underlying).option? Ty.ofJson? = some e.underlying :=
    option?_ofOption Ty.toJson_ne_null fun t ht => Ty.ofJson?_toJson <| by
      rw [Option.mem_def.mp ht] at h
      exact h.1
  have hmembers : (Json.ofList EnumMember.toJson e.members).list? EnumMember.ofJson? =
      some e.members :=
    list?_map fun m hm => EnumMember.ofJson?_toJson (List.all_eq_true.mp h.2 m hm)
  simp [Enumeration.ofJson?, Enumeration.toJson, record?, text?, visibility?, hunderlying, hmembers]

/-- A declared type is read as far as its members are. -/
theorem typeOf?_typeJson (type : TypeDecl) {members : List Json} {decode : Json → Option Member}
    (htypes : Ty.storableAll type.baseTypes)
    (hmembers : (Json.array members).list? decode = some type.members) :
    typeOf? decode (typeJson type.name type.kind type.visibility type.typeParameters
      type.baseTypes members type.comments) = some type := by
  simp [typeOf?, typeJson, record?, text?, texts?, visibility?, Ty.ofJson?_listJson htypes,
    hmembers]

mutual

theorem Member.decode_toJson (m : Member) (h : m.storable) {fuel : Nat}
    (hfuel : m.toJson.depth < fuel) : Member.decode fuel m.toJson = some m := by
  obtain ⟨fuel, rfl⟩ : ∃ n, fuel = n + 1 := ⟨fuel - 1, by omega⟩
  match m with
  | .field value => simp [Member.decode, Member.toJson, Field.ofJson?_toJson h]
  | .method value => simp [Member.decode, Member.toJson, Method.ofJson?_toJson h]
  | .property value => simp [Member.decode, Member.toJson, Property.ofJson?_toJson h]
  | .type ⟨name, kind, visibility, typeParameters, baseTypes, members, comments⟩ =>
    simp only [Member.storable, Bool.and_eq_true] at h
    simp only [Member.toJson, typeJson, depth_tagged, depth, depthOfFields] at hfuel
    have hmembers : (Json.array (Member.listJson members)).list? (Member.decode fuel) =
        some members := Member.decode_listJson members h.2 (by omega)
    have htype := typeOf?_typeJson
      ⟨name, kind, visibility, typeParameters, baseTypes, members, comments⟩ h.1 hmembers
    simp [Member.decode, Member.toJson, htype]
  | .enumeration value => simp [Member.decode, Member.toJson, Enumeration.ofJson?_toJson h]

theorem Member.decode_listJson (ms : List Member) (h : Member.storableAll ms) {fuel : Nat}
    (hfuel : depthOfList (Member.listJson ms) < fuel) :
    (Json.array (Member.listJson ms)).list? (Member.decode fuel) = some ms := by
  match ms with
  | [] => rfl
  | m :: ms =>
    simp only [Member.storableAll, Bool.and_eq_true] at h
    simp only [Member.listJson, depthOfList] at hfuel
    exact list?_cons (Member.decode_toJson m h.1 (by omega))
      (Member.decode_listJson ms h.2 (by omega))

end

/-! ## Programs -/

theorem Import.ofJson?_toJson (i : Import) : Import.ofJson? i.toJson = some i := by
  simp [Import.ofJson?, Import.toJson, record?, text?]

theorem SourceOptions.ofJson?_toJson {o : SourceOptions} (h : o.base < 256) :
    SourceOptions.ofJson? o.toJson = some o := by
  have hflag (flag : Option Bool) : (ofOption Json.bool flag).option? bool? = some flag :=
    option?_ofOption nofun fun _ _ => rfl
  simp [SourceOptions.ofJson?, SourceOptions.toJson, record?, hflag, natBelow?_ofInt h]

theorem TypeDecl.ofJson?_toJson {type : TypeDecl} (htypes : Ty.storableAll type.baseTypes)
    (hmembers : Member.storableAll type.members) :
    TypeDecl.ofJson? (TypeDecl.toJson type) = some type := by
  refine typeOf?_typeJson type htypes (Member.decode_listJson type.members hmembers ?_)
  simp only [TypeDecl.toJson, typeJson, depth, depthOfFields]
  omega

/-- Imports that are all different are listed as they stand. -/
theorem foldl_insertNew (before : List Import) {xs : List Import} (h : (before ++ xs).Nodup) :
    xs.foldl insertNew before = before ++ xs := by
  induction xs generalizing before with
  | nil => simp
  | cons x xs ih =>
    have hnew : x ∉ before := fun hx => (List.nodup_append.mp h).2.2 x hx x (by simp) rfl
    have hrest : ((before ++ [x]) ++ xs).Nodup := by simpa using h
    simp [insertNew, hnew, ih _ hrest]

theorem Program.ofJson?_toJson {p : Program} (h : p.Storable) :
    Program.ofJson? p.toJson = some p := by
  have himports : (Json.ofList Import.toJson p.imports).list? Import.ofJson? = some p.imports :=
    list?_map fun i _ => Import.ofJson?_toJson i
  simp [Program.ofJson?, Program.toJson, record?, himports, foldl_insertNew [] h.imports,
    SourceOptions.ofJson?_toJson h.base, TypeDecl.ofJson?_toJson h.baseTypes h.members]

/-- The serialized text of a program keeps the whole program: the text decodes to the program it
was written for, and so no other program has this text. -/
theorem Program.json_faithful {p : Program} (hp : p.Storable) :
    (Json.parse p.json).bind Program.ofJson? = some p ∧
      ∀ q : Program, q.Storable → q.json = p.json → q = p := by
  have hread {p : Program} (hp : p.Storable) :
      (Json.parse p.json).bind Program.ofJson? = some p := by
    rw [Program.json, parse_pretty (Program.numeric hp), Option.bind_some,
      Program.ofJson?_toJson hp]
  refine ⟨hread hp, fun q hq hjson => ?_⟩
  have hsame := hread hq
  rw [hjson, hread hp] at hsame
  exact (Option.some.inj hsame).symm

/-- A program whose texts look like serialized text themselves. -/
def quotingProgram : Program where
  nameSpace := none
  imports := [⟨none, "System"⟩, ⟨some "IO", "System.IO"⟩]
  options := ⟨some true, none, .text, 1⟩
  type :=
    { TypeDecl.ofName "Quotes" .moduleType with
      members := [
        .field ⟨"grid", .array (.primitive .long) 2, .privateAccess, true, false, false, none,
          ["\"name\": \"grid\","]⟩,
        .method ⟨"Main", .normal, .publicAccess, true, [], [], .void,
          [.comment "ends here: \"\n\x7d]\\", .returns none, .goto "null",
            .expression (.invoke none "Put" [.literal (.char '"'), .null, .literal (.int (-1))])],
          none, []⟩] }

theorem quoting_program_kept :
    quotingProgram.Storable ∧
      (Json.parse quotingProgram.json).bind Program.ofJson? = some quotingProgram :=
  have h : quotingProgram.Storable := ⟨by decide, by decide, by decide, by decide⟩
  ⟨h, (Program.json_faithful h).1⟩

end StructuredBasic.Target
