import StructuredBasic.Proofs.Lowering.Accessors

/-!
# The search for a fresh name

A name that is in use gets a number behind it. The numbers are tried in order (`Search`), and since
candidates differ, one that is not larger than the number of names in use is found
(`search_iff`). It is the least one that makes the name new, and names made in turn, from whatever
bases, differ from one another (`fresh_takes_first_free`).
-/

set_option autoImplicit false

namespace StructuredBasic.Lowering

/-! ## Specification -/

/-- The search that has come to the `k`-th candidate ends with the name: it passes over candidates
in use and stops at the first other one. -/
inductive Search (taken : List String) (base : String) : Nat → String → Prop
  | found {k : Nat} (h : (candidate base k).toLower ∉ taken) :
      Search taken base k (candidate base k)
  | next {k : Nat} {name : String} (h : (candidate base k).toLower ∈ taken)
      (hrest : Search taken base (k + 1) name) : Search taken base k name

/-- The base with the least number behind it that makes a name not in use. -/
structure LeastNumber (taken : List String) (base : String) (k : Nat) : Prop where
  pos : 0 < k
  free : (base ++ toString k).toLower ∉ taken
  before : ∀ i, 0 < i → i < k → (base ++ toString i).toLower ∈ taken

/-! ## One name -/

section One

variable {taken : List String} {base : String} {k : Nat}

theorem isTaken_iff {name : String} : isTaken taken name = true ↔ name.toLower ∈ taken :=
  List.contains_iff_mem

theorem candidate_of_pos (h : 0 < k) : candidate base k = base ++ toString k := by
  cases k with
  | zero => cases h
  | succ k => rfl

/-- A fresh name is the first candidate that is not in use. -/
theorem fresh_first_free (taken : List String) (base : String) :
    ∃ k, (fresh taken base).1 = candidate base k ∧ (candidate base k).toLower ∉ taken ∧
      ∀ i < k, (candidate base i).toLower ∈ taken := by
  obtain ⟨k, hname, hfree, hbefore⟩ := fresh_eq_candidate taken base
  refine ⟨k, hname, fun h => ?_, fun i hi => isTaken_iff.1 (hbefore i hi)⟩
  rw [isTaken_iff.2 h] at hfree
  cases hfree

theorem search_from (hfree : (candidate base k).toLower ∉ taken)
    (hbefore : ∀ i < k, (candidate base i).toLower ∈ taken) (left : Nat) :
    ∀ i, i + left = k → Search taken base i (candidate base k) := by
  induction left with
  | zero =>
    rintro i rfl
    exact .found hfree
  | succ left ih =>
    intro i hi
    exact .next (hbefore i (by omega)) (ih (i + 1) (by omega))

theorem Search.unique {name other : String} (h : Search taken base k name)
    (hother : Search taken base k other) : name = other := by
  induction h with
  | found hfree =>
    cases hother with
    | found => rfl
    | next htaken => exact absurd htaken hfree
  | next htaken _ ih =>
    cases hother with
    | found hfree => exact absurd htaken hfree
    | next _ hrest => exact ih hrest

/-- The search ends, and only with the fresh name. -/
theorem search_iff {name : String} : Search taken base 0 name ↔ name = (fresh taken base).1 := by
  obtain ⟨k, hname, hfree, hbefore⟩ := fresh_first_free taken base
  have hsearch : Search taken base 0 (fresh taken base).1 := by
    rw [hname]
    exact search_from hfree hbefore k 0 (Nat.zero_add k)
  exact ⟨fun h => h.unique hsearch, fun h => h ▸ hsearch⟩

/-- A base that is not in use is a fresh name itself. -/
theorem fresh_eq_base (h : base.toLower ∉ taken) : (fresh taken base).1 = base := by
  obtain ⟨k, hname, -, hbefore⟩ := fresh_first_free taken base
  cases k with
  | zero => exact hname
  | succ k => exact absurd (hbefore 0 (Nat.succ_pos k)) h

/-- A base in use gets the least number that makes it new. There are no more candidates in front of
it than names in use. -/
theorem fresh_eq_numbered (h : base.toLower ∈ taken) : ∃ k ≤ taken.length,
    (fresh taken base).1 = base ++ toString k ∧ LeastNumber taken base k := by
  obtain ⟨k, hname, hfree, hbefore⟩ := fresh_first_free taken base
  have hpos : 0 < k := by
    cases k with
    | zero => exact absurd h hfree
    | succ k => exact Nat.succ_pos k
  rw [candidate_of_pos hpos] at hname hfree
  refine ⟨k, le_length_of_taken hbefore, hname, hpos, hfree, fun i hi hlt => ?_⟩
  rw [← candidate_of_pos hi]
  exact hbefore i hlt

end One

/-! ## Names in turn -/

/-- Names made in turn were not in use before, and differ from one another. -/
theorem freshAll_apart (bases taken : List String) :
    ((freshAll taken bases).map String.toLower).Nodup ∧
      ∀ name ∈ freshAll taken bases, name.toLower ∉ taken := by
  induction bases generalizing taken with
  | nil => exact ⟨List.nodup_nil, nofun⟩
  | cons base rest ih =>
    obtain ⟨hnodup, hnew⟩ := ih (fresh taken base).2
    -- the first name is in use when the others are made
    have hlater : ∀ name ∈ freshAll (fresh taken base).2 rest,
        name.toLower ≠ (fresh taken base).1.toLower ∧ name.toLower ∉ taken := by
      intro name hname
      have := hnew name hname
      rwa [fresh, List.mem_cons, not_or] at this
    constructor
    · refine List.nodup_cons.2 ⟨fun hmem => ?_, hnodup⟩
      obtain ⟨name, hname, heq⟩ := List.mem_map.1 hmem
      exact (hlater name hname).1 heq
    · exact List.forall_mem_cons.2
        ⟨fresh_not_taken taken base, fun name hname => (hlater name hname).2⟩

/-- The search for a fresh name ends. It gives the base if that is not in use, and else the base
with the least number that makes it new, which is at most the number of names in use. The name was
not in use, and is the only one that becomes so. Names made in turn differ, whatever their case. -/
theorem fresh_takes_first_free (taken : List String) (base : String) :
    (∀ name, Search taken base 0 name ↔ name = (fresh taken base).1) ∧
    (base.toLower ∉ taken → (fresh taken base).1 = base) ∧
    (base.toLower ∈ taken → ∃ k ≤ taken.length,
      (fresh taken base).1 = base ++ toString k ∧ LeastNumber taken base k) ∧
    (fresh taken base).1.toLower ∉ taken ∧
    (∀ name, name ∈ (fresh taken base).2 ↔
      name = (fresh taken base).1.toLower ∨ name ∈ taken) ∧
    ∀ bases, ((freshAll taken bases).map String.toLower).Nodup ∧
      ∀ name ∈ freshAll taken bases, name.toLower ∉ taken :=
  ⟨fun _ => search_iff, fresh_eq_base, fresh_eq_numbered, fresh_not_taken taken base,
    fun _ => List.mem_cons, fun bases => freshAll_apart bases taken⟩

/-- A candidate of one base may be a base of its own. -/
example : freshAll ["x"] ["X", "x1", "x"] = ["X1", "x11", "x2"] := by
  have hfirst : fresh ["x"] "X" = ("X1", ["x1", "x"]) := by with_unfolding_all rfl
  have hsecond : fresh ["x1", "x"] "x1" = ("x11", ["x11", "x1", "x"]) := by
    with_unfolding_all rfl
  have hthird : fresh ["x11", "x1", "x"] "x" = ("x2", ["x2", "x11", "x1", "x"]) := by
    with_unfolding_all rfl
  simp only [freshAll, hfirst, hsecond, hthird]

end StructuredBasic.Lowering
