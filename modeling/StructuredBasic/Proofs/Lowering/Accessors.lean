import StructuredBasic.Proofs.Forest.Accepted
import StructuredBasic.Proofs.Lowering.Locals

/-!
# Names made up in accessors

The names that lowering a routine makes up are fixed by the names below the routine and by how many
of its locals are made from each base: from a base of which `m` locals are made come its first `m`
candidates that are no names below the routine (`RoutineBody.synthesizes_iff`). The parameters of a
property are declared above its accessors. So a local made up in an accessor may have the name of a
parameter that this accessor does not mention (`parameters_apart_iff`).
-/

set_option autoImplicit false

namespace StructuredBasic.Lowering

open Syntax

/-! ## Specification -/

/-- The base of a local that is made up. -/
def Local.base? : Local → Option String
  | .named _ => none
  | .made base => some base

/-- How many candidates in front of the `k`-th are no names in use. -/
def freeBefore (taken : List String) (base : String) (k : Nat) : Nat :=
  (List.range k).countP fun i => !isTaken taken (candidate base i)

/-- How many of the bases are this one, whatever its case. -/
def requests (bases : List String) (base : String) : Nat :=
  bases.countP fun other => other.toLower == base.toLower

/-- The name is not in use, and one of the first free candidates of a base: of as many as there are
locals to be made from it. -/
def Claimed (taken bases : List String) (n : String) : Prop :=
  isTaken taken n = false ∧ ∃ base k, n.toLower = (candidate base k).toLower ∧
    freeBefore taken base k < requests bases base

namespace RoutineBody

variable {forest : Forest} {settings : Settings} {body : List Target.Stmt}

/-- The bases from which the routine makes locals, one for each local. -/
def bases (r : RoutineBody forest settings body) : List String :=
  r.locals.filterMap Local.base?

/-- The name is no name below the routine, and a local of the routine is made with it. -/
def Claims (r : RoutineBody forest settings body) (n : String) : Prop :=
  Claimed (r.env.namesUnder r.node) r.bases n

end RoutineBody

/-- The names of the parameters around the accessors of a property: its own, and what its setter
calls the value. -/
def parameterNames (p : Target.Property) : List String :=
  p.parameters.map Target.Parameter.name ++ [p.setterParameter]

/-! ## Candidates -/

/-- The text ends in something other than a digit. -/
def Lettered (base : String) : Prop :=
  ∃ front last, base.toLower.toList = front ++ [last] ∧ last.isDigit = false

section Candidates

variable {base other : String} {j k : Nat}

theorem candidate_congr (h : base.toLower = other.toLower) (k : Nat) :
    (candidate base k).toLower = (candidate other k).toLower := by
  apply String.toList_inj.1
  rw [toList_candidate, toList_candidate, h]

theorem isDigit_digitsBehind : ∀ c ∈ digitsBehind k, c.isDigit = true := by
  cases k with
  | zero => exact nofun
  | succ k => exact fun c hc => Nat.isDigit_of_mem_toDigits (by decide) (by decide) hc

/-- The digits at the end of a candidate are those behind its base. -/
theorem takeWhile_candidate (h : Lettered base) (k : Nat) :
    (candidate base k).toLower.toList.reverse.takeWhile Char.isDigit =
      (digitsBehind k).reverse := by
  obtain ⟨front, last, hbase, hlast⟩ := h
  rw [toList_candidate, List.reverse_append, hbase, List.reverse_append, List.reverse_singleton,
    List.takeWhile_append_of_pos fun c hc => isDigit_digitsBehind c (List.mem_reverse.1 hc),
    List.singleton_append, List.takeWhile_cons_of_neg (by simp [hlast]), List.append_nil]

/-- Candidates of bases that end in letters are the same only if the bases are. -/
theorem candidate_injective_base (hbase : Lettered base) (hother : Lettered other)
    (h : (candidate base j).toLower = (candidate other k).toLower) :
    base.toLower = other.toLower ∧ j = k := by
  have hdigits : (digitsBehind j).reverse = (digitsBehind k).reverse := by
    rw [← takeWhile_candidate hbase j, ← takeWhile_candidate hother k, h]
  obtain rfl : j = k := digitsBehind_injective (List.reverse_injective hdigits)
  have hlist := congrArg String.toList h
  rw [toList_candidate, toList_candidate] at hlist
  exact ⟨String.toList_inj.1 (List.append_cancel_right hlist), rfl⟩

theorem lettered_append {base front : String} (hbase : Lettered base) :
    Lettered (front ++ base) := by
  obtain ⟨letters, last, hlist, hlast⟩ := hbase
  refine ⟨front.toLower.toList ++ letters, last, ?_, hlast⟩
  rw [toList_toLower, String.toList_append, List.map_append, ← toList_toLower, ← toList_toLower,
    hlist, List.append_assoc]

end Candidates

/-! ## Free candidates -/

section Free

variable {taken : List String} {base other : String} {n : String} {k : Nat}

theorem isTaken_cons {name : String} : isTaken (name.toLower :: taken) n = true ↔
    n.toLower = name.toLower ∨ isTaken taken n = true := by
  rw [isTaken, isTaken, List.contains_iff_mem, List.contains_iff_mem, List.mem_cons]

/-- A fresh name is the first candidate that is not in use. -/
theorem fresh_eq_candidate (taken : List String) (base : String) :
    ∃ k, (fresh taken base).1 = candidate base k ∧
      isTaken taken (candidate base k) = false ∧
      ∀ i < k, isTaken taken (candidate base i) = true := by
  have hsearch : ∀ tries k, ∃ j, firstFree taken base k tries = candidate base (k + j) ∧
      ∀ i < j, isTaken taken (candidate base (k + i)) = true := by
    intro tries
    induction tries with
    | zero => exact fun k => ⟨0, rfl, nofun⟩
    | succ tries ih =>
      intro k
      rw [firstFree]
      split
      · next htaken =>
        obtain ⟨j, hj, hbefore⟩ := ih (k + 1)
        refine ⟨j + 1, by rw [hj, Nat.add_assoc, Nat.add_comm 1 j], fun i hi => ?_⟩
        cases i with
        | zero => exact htaken
        | succ i =>
          have := hbefore i (by omega)
          rwa [Nat.add_assoc, Nat.add_comm 1 i] at this
      · exact ⟨0, rfl, nofun⟩
  obtain ⟨k, hk, hbefore⟩ := hsearch taken.length 0
  rw [Nat.zero_add] at hk
  refine ⟨k, hk, ?_, fun i hi => by simpa using hbefore i hi⟩
  have hfree := fresh_not_taken taken base
  rw [fresh, hk] at hfree
  exact Bool.eq_false_iff.2 fun htaken => hfree (List.contains_iff_mem.1 htaken)

theorem freeBefore_congr (h : base.toLower = other.toLower) :
    freeBefore taken base k = freeBefore taken other k := by
  unfold freeBefore isTaken
  simp only [candidate_congr h]

theorem freeBefore_eq_zero (h : ∀ i < k, isTaken taken (candidate base i) = true) :
    freeBefore taken base k = 0 := by
  refine List.countP_eq_zero.2 fun i hi => ?_
  simp [h i (List.mem_range.1 hi)]

theorem freeBefore_succ (taken : List String) (base : String) (k : Nat) :
    freeBefore taken base (k + 1) =
      freeBefore taken base k + if isTaken taken (candidate base k) then 0 else 1 := by
  rw [freeBefore, List.range_succ, List.countP_append, List.countP_singleton, freeBefore]
  cases isTaken taken (candidate base k) <;> rfl

/-- Putting the first free candidate in use takes it from those in front of a later one. -/
theorem freeBefore_cons {first : Nat} (hfree : isTaken taken (candidate base first) = false)
    (k : Nat) : freeBefore taken base k =
      freeBefore ((candidate base first).toLower :: taken) base k + if first < k then 1 else 0 := by
  induction k with
  | zero => rfl
  | succ k ih =>
    rw [freeBefore_succ, freeBefore_succ, ih]
    have hcons : isTaken ((candidate base first).toLower :: taken) (candidate base k) = true ↔
        (candidate base k).toLower = (candidate base first).toLower ∨
          isTaken taken (candidate base k) = true := isTaken_cons
    by_cases hk : k = first
    · subst hk
      rw [hcons.2 (Or.inl rfl), hfree, if_neg (Nat.lt_irrefl _), if_pos (Nat.lt_succ_self _)]
      rfl
    · have hne : (candidate base k).toLower ≠ (candidate base first).toLower :=
        fun h => hk (candidate_injective h)
      have hsame : isTaken ((candidate base first).toLower :: taken) (candidate base k) =
          isTaken taken (candidate base k) := by
        rw [Bool.eq_iff_iff, hcons, or_iff_right hne]
      have hlt : first < k + 1 ↔ first < k := by omega
      simp only [hsame, hlt]
      omega

/-- Putting a candidate in use concerns no other base. -/
theorem freeBefore_cons_other {first : Nat} (hbase : Lettered base) (hother : Lettered other)
    (hne : base.toLower ≠ other.toLower) :
    freeBefore ((candidate base first).toLower :: taken) other k = freeBefore taken other k := by
  refine List.countP_congr fun i _ => ?_
  have hsame : isTaken ((candidate base first).toLower :: taken) (candidate other i) =
      isTaken taken (candidate other i) := by
    rw [Bool.eq_iff_iff, isTaken_cons]
    exact or_iff_right fun h => hne (candidate_injective_base hother hbase h).1.symm
  rw [hsame]

end Free

/-! ## Names made in turn -/

/-- Fresh names from these bases, each in use when the next one is made. -/
def freshAll (taken : List String) : List String → List String
  | [] => []
  | base :: rest => (fresh taken base).1 :: freshAll (fresh taken base).2 rest

theorem madeNames_settle (locals : List Local) (taken : List String) :
    madeNames (settle taken locals) = freshAll taken (locals.filterMap Local.base?) := by
  induction locals generalizing taken with
  | nil => rfl
  | cons first locals ih =>
    cases first with
    | named name => exact ih taken
    | made base => exact congrArg (_ :: ·) (ih _)

theorem requests_cons (base other : String) (bases : List String) :
    requests (base :: bases) other =
      requests bases other + if base.toLower = other.toLower then 1 else 0 := by
  rw [requests, List.countP_cons, requests]
  simp only [beq_iff_eq]

theorem lettered_of_requests {bases : List String} {base : String}
    (hbases : ∀ other ∈ bases, Lettered other) (h : 0 < requests bases base) : Lettered base := by
  obtain ⟨other, hother, hsame⟩ := List.countP_pos_iff.1 h
  obtain ⟨front, last, hlist, hlast⟩ := hbases other hother
  exact ⟨front, last, by rw [← beq_iff_eq.1 hsame, hlist], hlast⟩

section Making

variable {taken bases : List String} {base other : String} {first k : Nat}

/-- Making one name takes a request from its base and a free candidate from those in front of the
later ones. -/
theorem freeBefore_lt_requests_cons (hfree : isTaken taken (candidate base first) = false)
    (hbefore : ∀ i < first, isTaken taken (candidate base i) = true) (hbase : Lettered base)
    (hother : Lettered other)
    (hne : (candidate other k).toLower ≠ (candidate base first).toLower)
    (hk : isTaken taken (candidate other k) = false) :
    freeBefore taken other k < requests (base :: bases) other ↔
      freeBefore ((candidate base first).toLower :: taken) other k < requests bases other := by
  rw [requests_cons]
  by_cases hsame : base.toLower = other.toLower
  · rw [← candidate_congr hsame] at hne
    -- the candidates in front of the first free one are in use
    have hlater : first < k := by
      rcases Nat.lt_trichotomy first k with h | rfl | h
      · exact h
      · exact absurd rfl hne
      · have htaken := hbefore k h
        rw [isTaken, candidate_congr hsame, ← isTaken, hk] at htaken
        cases htaken
    rw [← freeBefore_congr hsame, freeBefore_cons hfree, if_pos hlater, if_pos hsame,
      freeBefore_congr hsame]
    exact Nat.add_lt_add_iff_right
  · rw [if_neg hsame, Nat.add_zero, freeBefore_cons_other hbase hother hsame]

theorem claimed_cons (hfree : isTaken taken (candidate base first) = false)
    (hbefore : ∀ i < first, isTaken taken (candidate base i) = true)
    (hbases : ∀ other ∈ base :: bases, Lettered other) (n : String) :
    Claimed taken (base :: bases) n ↔ n.toLower = (candidate base first).toLower ∨
      Claimed ((candidate base first).toLower :: taken) bases n := by
  have hbase : Lettered base := hbases base List.mem_cons_self
  by_cases hn : n.toLower = (candidate base first).toLower
  · refine iff_of_true ⟨?_, base, first, hn, ?_⟩ (Or.inl hn)
    · rw [isTaken, hn]
      exact hfree
    · rw [freeBefore_eq_zero hbefore, requests_cons, if_pos rfl]
      exact Nat.succ_pos _
  · have htaken : isTaken ((candidate base first).toLower :: taken) n = isTaken taken n := by
      rw [Bool.eq_iff_iff, isTaken_cons, or_iff_right hn]
    rw [or_iff_right hn, Claimed, Claimed, htaken]
    refine and_congr_right fun hnot => exists_congr fun other => exists_congr fun k =>
      and_congr_right fun hk => ?_
    rw [isTaken, hk, ← isTaken] at hnot
    have hother : 0 < requests (base :: bases) other → Lettered other :=
      lettered_of_requests hbases
    rw [hk] at hn
    constructor
    · intro hlt
      exact (freeBefore_lt_requests_cons hfree hbefore hbase (hother (by omega)) hn hnot).1 hlt
    · intro hlt
      have hle : requests bases other ≤ requests (base :: bases) other := by
        rw [requests_cons]
        exact Nat.le_add_right _ _
      exact (freeBefore_lt_requests_cons hfree hbefore hbase (hother (by omega)) hn hnot).2 hlt

end Making

/-- From each base come as many of its first free candidates as there are locals to be made. -/
theorem mem_freshAll {bases : List String} (hbases : ∀ base ∈ bases, Lettered base)
    (taken : List String) (n : String) :
    n.toLower ∈ (freshAll taken bases).map String.toLower ↔ Claimed taken bases n := by
  induction bases generalizing taken with
  | nil => simp [freshAll, Claimed, requests]
  | cons base bases ih =>
    obtain ⟨first, hfirst, hfree, hbefore⟩ := fresh_eq_candidate taken base
    have htaken : (fresh taken base).2 = (candidate base first).toLower :: taken := by
      rw [← hfirst]
      rfl
    rw [freshAll, List.map_cons, List.mem_cons, hfirst, htaken,
      ih (List.forall_mem_cons.1 hbases).2, claimed_cons hfree hbefore hbases]

/-! ## Routines -/

section Bases

variable {env : Env} {base : String}

theorem not_made_of_variablesOf {declarator : Nat} : .made base ∉ env.variablesOf declarator := by
  unfold Env.variablesOf
  split <;> simp

theorem lettered_of_localsOf {stmt : Stmt} (h : .made base ∈ env.localsOf stmt) :
    Lettered base := by
  have hdeclared : ∀ declarators : List Nat, .made base ∉ declarators.flatMap env.variablesOf := by
    intro declarators hmem
    obtain ⟨_, _, hmem⟩ := List.mem_flatMap.1 hmem
    exact not_made_of_variablesOf hmem
  unfold Env.localsOf at h
  split at h
  · exact absurd h (hdeclared _)
  · split at h
    · cases List.mem_singleton.1 h
      exact ⟨"latc".toList, 'h', by decide +kernel, rfl⟩
    · cases h
  · exact absurd h (hdeclared _)
  · rcases List.mem_append.1 h with h | h
    · exact absurd h (hdeclared _)
    · cases List.mem_singleton.1 h
      exact ⟨"enumerato".toList, 'r', by decide +kernel, rfl⟩
  · unfold Env.selectorLocal at h
    split at h
    · cases h
    · cases h
    · cases List.mem_singleton.1 h
      exact ⟨"selecte".toList, 'd', by decide +kernel, rfl⟩
  · obtain ⟨operand, _, h⟩ := List.mem_flatMap.1 h
    unfold Env.copyLocal at h
    split at h
    · cases List.mem_singleton.1 h
      exact lettered_append ⟨"preserve".toList, 'd', by decide +kernel, rfl⟩
    · cases h
  · cases h

end Bases

namespace RoutineBody

variable {forest : Forest} {settings : Settings} {body : List Target.Stmt}

theorem lettered_bases (r : RoutineBody forest settings body) :
    ∀ base ∈ r.bases, Lettered base := by
  intro base hbase
  obtain ⟨first, hmem, hfirst⟩ := List.mem_filterMap.1 hbase
  cases first with
  | named name => cases hfirst
  | made made =>
    cases hfirst
    rcases List.mem_append.1 hmem with hmem | hmem
    · unfold Env.resultLocal at hmem
      split at hmem
      · cases List.mem_singleton.1 hmem
        exact lettered_append ⟨"resul".toList, 't', by decide +kernel, rfl⟩
      · cases hmem
    · obtain ⟨d, _, hlocal⟩ := Forest.mem_gather.1 hmem
      unfold Env.localsAt at hlocal
      split at hlocal
      · exact lettered_of_localsOf hlocal
      · cases hlocal

/-- Which names are made up in a routine can be read off its source. -/
theorem synthesizes_iff (r : RoutineBody forest settings body) (hf : forest.Shaped) (n : String) :
    r.Synthesizes n ↔ r.Claims n := by
  rw [Synthesizes, (r.locals_spec hf).2, List.mem_reverse, settled, madeNames_settle]
  exact mem_freshAll r.lettered_bases _ n

end RoutineBody

/-! ## Accessors -/

section Accessors

variable {forest : Forest} {settings : Settings} {options : Target.SourceOptions}
  {accessors : Option Nat} {x : Nat} {p q : Target.Property}

/-- The body is that of one of the accessors, lowered under the name of the property. -/
def AccessorOf (forest : Forest) (settings : Settings) (options : Target.SourceOptions)
    (accessors : Option Nat) (name : String) (body : List Target.Stmt) : Prop :=
  ∃ r : RoutineBody forest settings body, r.options = options ∧ r.name = name ∧
    r.node ∈ forest.elements accessors

theorem addAccessor_accessorOf (hx : x ∈ forest.elements accessors)
    (hp : ∀ body, p.getter = some body ∨ p.setter = some body →
      AccessorOf forest settings options accessors p.name body)
    (h : (Env.atTop forest settings options).addAccessor p x = .ok q) :
    ∀ body, q.getter = some body ∨ q.setter = some body →
      AccessorOf forest settings options accessors q.name body := by
  unfold Env.addAccessor at h
  split at h
  · next front parameters statements last haccessor =>
    have hholds : HoldsStatements forest x statements := .accessor haccessor
    split at h
    · simp only [Result.bind_ok, Result.pure_ok] at h
      obtain ⟨lowered, hlowered, rfl⟩ := h
      rintro body (hbody | hbody)
      · cases hbody
        exact ⟨⟨options, x, p.name, p.type, statements, hholds, hlowered⟩, rfl, rfl, hx⟩
      · exact hp body (Or.inr hbody)
    · simp only [Result.bind_ok, Result.pure_ok] at h
      obtain ⟨_, _, lowered, hlowered, rfl⟩ := h
      rintro body (hbody | hbody)
      · exact hp body (Or.inl hbody)
      · cases hbody
        exact ⟨⟨options, x, p.name, .void, statements, hholds, hlowered⟩, rfl, rfl, hx⟩
  · cases h
    exact hp
  · cases h
    exact hp
  · exact absurd h unsupported_ne_ok

theorem accessorOf_of_lowerProperty {id : Nat} {header : Header} {signature : Signature}
    {inModule : Bool} (h : (Env.atTop forest settings options).lowerProperty id header signature
      accessors inModule = .ok p) :
    (Env.atTop forest settings options).lowerParameters signature.parameters = .ok p.parameters ∧
      ∀ body, p.getter = some body ∨ p.setter = some body →
        AccessorOf forest settings options accessors p.name body := by
  simp only [Env.lowerProperty, Result.bind_ok] at h
  obtain ⟨name, _, type, _, parameters, hparameters, h⟩ := h
  -- the accessors still to come are accessors of this property, and it keeps its parameters
  have hfold := Result.foldlM_ok (P := fun ids q => (∀ x ∈ ids, x ∈ forest.elements accessors) ∧
    q.parameters = parameters ∧ ∀ body, q.getter = some body ∨ q.setter = some body →
      AccessorOf forest settings options accessors q.name body) ?_ _ ?_ h
  · obtain ⟨-, hkept, hall⟩ := hfold
    exact ⟨hkept ▸ hparameters, hall⟩
  · rintro x xs p q ⟨hids, hkept, hp⟩ hadd
    have hq := addAccessor_accessorOf (hids x List.mem_cons_self) hp hadd
    obtain ⟨-, -, hsame⟩ := addAccessor_ok hadd
    exact ⟨fun y hy => hids y (List.mem_cons_of_mem _ hy), hsame.trans hkept, hq⟩
  · refine ⟨fun x hx => hx, rfl, fun body hbody => ?_⟩
    rcases hbody with hbody | hbody <;> cases hbody

/-- What a setter calls its value is a name of the accessor. -/
theorem mem_namesUnder_of_setterParameter {env : Env} {front : Header}
    {parameters statements last : Option Nat} {text : String}
    (hdecl : env.forest.decl? x = some (.accessor front parameters statements last))
    (h : env.setterParameter? parameters = .ok (some text)) : text.toLower ∈ env.namesUnder x := by
  unfold Env.setterParameter? at h
  split at h
  · next parameter hparameter =>
    simp only [Result.bind_ok, Result.pure_ok, Option.some.injEq] at h
    obtain ⟨name, hname, rfl⟩ := h
    obtain ⟨first, hfirst, hpayload⟩ := Option.bind_eq_some_iff.1 hparameter
    have hmem : first ∈ env.forest.elements parameters := List.mem_of_mem_head? hfirst
    obtain ⟨d, hd, suffix, escaped, hsimple⟩ := simple_of_nameText (nameText_ok hname)
    have hname : parameter.name ∈ env.forest.children first :=
      Forest.mem_children_of_slot hpayload (by simp [Payload.slots, Parameter.slots, Slot.one])
    have hbelow : first ∈ env.forest.descendants x := by
      cases parameters with
      | none => cases hmem
      | some c =>
        have hc := Forest.mem_children_of_decl hdecl (c := c) (by simp [Decl.slots, Slot.opt])
        exact Forest.mem_descendants_child (Forest.mem_descendants_child
          (Forest.mem_descendants_self _ x) hc) (Forest.mem_children_of_elements hmem)
    exact mem_namesUnder (Forest.mem_descendants_trans
      (Forest.mem_descendants_child hbelow hname) hd) hsimple
  · cases h

end Accessors

/-- Each accessor of a property that lowers is the lowering of an accessor of the source. A local
made up in it has the name of a parameter of the property exactly if its source claims that name,
and never the name that a setter itself gives to its value. -/
theorem parameters_apart_iff {tree : Tree} (hfinished : tree.Finished) {settings : Settings}
    {options : Target.SourceOptions} {id : Nat} {header : Header} {signature : Signature}
    {implements accessors tail : Option Nat} {inModule : Bool} {p : Target.Property}
    (hdecl : tree.decl? id = some (.property header signature implements accessors tail))
    (h : (Env.atTop tree.toForest settings options).lowerProperty id header signature accessors
      inModule = .ok p) {body : List Target.Stmt}
    (hbody : p.getter = some body ∨ p.setter = some body) :
    (Env.atTop tree.toForest settings options).lowerParameters signature.parameters =
        .ok p.parameters ∧
      (∃ r : RoutineBody tree.toForest settings body, r.options = options ∧ r.name = p.name ∧
        r.node ∈ tree.elements accessors ∧ r.node ∈ tree.descendants id) ∧
      ∀ r : RoutineBody tree.toForest settings body,
        (∀ n, r.Synthesizes n ↔ r.Claims n) ∧
        ((∀ n ∈ parameterNames p, ¬ r.Synthesizes n) ↔ ∀ n ∈ parameterNames p, ¬ r.Claims n) ∧
        ∀ front parameters statements last text,
          tree.decl? r.node = some (.accessor front parameters statements last) →
          r.env.setterParameter? parameters = .ok (some text) → ¬ r.Synthesizes text := by
  obtain ⟨hparameters, hall⟩ := accessorOf_of_lowerProperty h
  refine ⟨hparameters, ?_, fun r => ?_⟩
  · obtain ⟨r, hoptions, hname, hnode⟩ := hall body hbody
    refine ⟨r, hoptions, hname, hnode, ?_⟩
    cases accessors with
    | none => cases hnode
    | some c =>
      have hc := Forest.mem_children_of_decl hdecl (c := c)
        (by simp [Decl.slots, Slot.members, Slot.opt])
      exact Forest.mem_descendants_child (Forest.mem_descendants_child
        (Forest.mem_descendants_self _ id) hc) (Forest.mem_children_of_elements hnode)
  · have hiff : ∀ n, r.Synthesizes n ↔ r.Claims n := r.synthesizes_iff hfinished.built.shaped
    refine ⟨hiff, by simp only [hiff], ?_⟩
    intro front parameters statements last text haccessor htext hmade
    exact not_named_of_madeUp hmade (mem_namesUnder_of_setterParameter haccessor htext)

/-- A property with the parameter `latch`, whose getter has a loop that tests after its body and
whose setter has one that tests `latch`. -/
def indexedFile : List Call :=
  let span := Span.startingAt ⟨1, 1⟩
  [.alloc .simpleName span (.name (.simple "Item" (some .integer) false)),
    .alloc .simpleName span (.name (.simple "latch" (some .integer) false)),
    .alloc .variableName span (.name (.declared 1 none)),
    .alloc .parameter span (.parameter ⟨none, none, 2, none, none⟩),
    .collection .parameterCollection span [some 3] [],
    .alloc .booleanLiteralExpression span (.expr (.literal (.boolean true))),
    .alloc .loopStatement span (.stmt (.loopEnd (some ⟨true, 5⟩))),
    .alloc .doBlockStatement span (.stmt (.doBlock none none (some 6))),
    .collection .statementCollection span [some 7] [],
    .alloc .getAccessorDeclaration span (.decl (.accessor ⟨none, none⟩ none (some 8) none)),
    .alloc .simpleName span (.name (.simple "latch" none false)),
    .alloc .simpleNameExpression span (.expr (.simpleName 10)),
    .alloc .loopStatement span (.stmt (.loopEnd (some ⟨true, 11⟩))),
    .alloc .doBlockStatement span (.stmt (.doBlock none none (some 12))),
    .collection .statementCollection span [some 13] [],
    .alloc .setAccessorDeclaration span (.decl (.accessor ⟨none, none⟩ none (some 14) none)),
    .collection .declarationCollection span [some 9, some 15] [],
    .alloc .propertyDeclaration span
      (.decl (.property ⟨none, none⟩ ⟨0, none, some 4, none⟩ none (some 16) none)),
    .collection .declarationCollection span [some 17] [],
    .alloc .file span (.file ⟨some 18⟩)]

def indexedTree : Tree := .ofCalls indexedFile 19

theorem indexed_accepted : (Forest.empty.after indexedFile).size = indexedFile.length := by
  decide +kernel

theorem indexedTree_settled :
    indexedTree = { Forest.settled indexedFile indexed_accepted with root := 19 } :=
  Tree.ofCalls_eq_settled 19 indexed_accepted

def indexedProperty : Target.Property where
  name := "Item"
  type := .primitive .int
  visibility := .publicAccess
  isStatic := true
  parameters := [⟨"latch", .primitive .int, .byValue, false, none⟩]
  getter := some [postTestLoop "latch" (.bool true) []]
  setter := some [postTestLoop "latch1" (.ident "latch") []]
  setterParameter := "value"
  comments := []

def indexedGetter :
    RoutineBody indexedTree.toForest .standard [postTestLoop "latch" (.bool true) []] where
  options := Settings.standard.options
  node := 9
  name := "Item"
  returnType := .primitive .int
  statements := some 8
  holds := .accessor (by rw [indexedTree_settled]; rfl)
  lowered := by rw [indexedTree_settled]; with_unfolding_all rfl

def indexedSetter :
    RoutineBody indexedTree.toForest .standard [postTestLoop "latch1" (.ident "latch") []] where
  options := Settings.standard.options
  node := 15
  name := "Item"
  returnType := .void
  statements := some 14
  holds := .accessor (by rw [indexedTree_settled]; rfl)
  lowered := by rw [indexedTree_settled]; with_unfolding_all rfl

theorem indexed_lowers : indexedTree.Finished ∧ indexedTree.decl? 17 =
      some (.property ⟨none, none⟩ ⟨0, none, some 4, none⟩ none (some 16) none) ∧
    (Env.atTop indexedTree.toForest .standard Settings.standard.options).lowerProperty 17
      ⟨none, none⟩ ⟨0, none, some 4, none⟩ (some 16) true = .ok indexedProperty := by
  refine ⟨Tree.finished_of_last indexed_accepted rfl, ?_, ?_⟩
  · rw [indexedTree_settled]
    rfl
  · rw [indexedTree_settled]
    with_unfolding_all rfl

theorem mentioned_parameter_apart : indexedTree.Finished ∧
    indexedProperty.setter = some [postTestLoop "latch1" (.ident "latch") []] ∧
    "latch" ∈ parameterNames indexedProperty ∧ ¬ indexedSetter.Synthesizes "latch" := by
  obtain ⟨hfinished, hdecl, hlowers⟩ := indexed_lowers
  obtain ⟨-, -, hall⟩ := parameters_apart_iff hfinished hdecl hlowers (Or.inr rfl)
  obtain ⟨hiff, -⟩ := hall indexedSetter
  have htaken :
      isTaken ((Env.atTop indexedTree.toForest .standard Settings.standard.options).namesUnder 15)
        "latch" = true := by
    rw [indexedTree_settled]
    decide +kernel
  refine ⟨hfinished, rfl, List.mem_cons_self, fun hmade => ?_⟩
  have hfree := ((hiff "latch").1 hmade).1
  exact Bool.false_ne_true (hfree.symm.trans htaken)

/-- The getter does not mention the parameter `latch`, and declares a local of this name. -/
theorem parameter_shadowed : indexedTree.Finished ∧
    (Env.atTop indexedTree.toForest .standard Settings.standard.options).lowerProperty 17
      ⟨none, none⟩ ⟨0, none, some 4, none⟩ (some 16) true = .ok indexedProperty ∧
    indexedProperty.getter = some [postTestLoop "latch" (.bool true) []] ∧
    "latch" ∈ parameterNames indexedProperty ∧ indexedGetter.Synthesizes "latch" := by
  obtain ⟨hfinished, -, hlowers⟩ := indexed_lowers
  refine ⟨hfinished, hlowers, rfl, List.mem_cons_self, ?_⟩
  unfold RoutineBody.Synthesizes
  decide +kernel

end StructuredBasic.Lowering
