import Mathlib.Data.List.Nodup
import StructuredBasic.Proofs.Lowering.Derivation

/-!
# Fresh names

Candidates for a name differ from one another even in lower case, so among one more of them than
there are names in use one is free (`fresh_not_taken`). Lowering a body adds names that were not in
use before, each once (`LowersAll.grows`).
-/

set_option autoImplicit false

namespace StructuredBasic.Lowering

open Syntax

/-! ## Candidates -/

theorem toList_toLower (s : String) : s.toLower.toList = s.toList.map Char.toLower :=
  String.toList_map

theorem toLower_of_isDigit {c : Char} (h : c.isDigit = true) : c.toLower = c := by
  unfold Char.toLower
  rw [dif_neg]
  simp only [Char.isDigit, Bool.and_eq_true, decide_eq_true_eq] at h
  intro hupper
  have h1 : c.val ≤ '9'.val := h.2
  have h2 : 'A'.val ≤ c.val := hupper.1
  exact absurd (UInt32.le_trans h2 h1) (by decide)

/-- The digits behind a candidate, none behind the base itself. -/
def digitsBehind : Nat → List Char
  | 0 => []
  | k + 1 => Nat.toDigits 10 (k + 1)

theorem toList_candidate (base : String) (k : Nat) :
    (candidate base k).toLower.toList = base.toLower.toList ++ digitsBehind k := by
  cases k with
  | zero => rw [candidate, digitsBehind, List.append_nil]
  | succ k =>
    have hdigits : (Nat.toDigits 10 (k + 1)).map Char.toLower = Nat.toDigits 10 (k + 1) := by
      conv => rhs; rw [← List.map_id (Nat.toDigits 10 (k + 1))]
      refine List.map_congr_left fun c hc => toLower_of_isDigit ?_
      exact Nat.isDigit_of_mem_toDigits (by decide) (by decide) hc
    rw [candidate, toList_toLower, String.toList_append, List.map_append, ← toList_toLower,
      Nat.toString_eq_repr, Nat.toList_repr, hdigits, digitsBehind]

theorem digitsBehind_injective {j k : Nat} (h : digitsBehind j = digitsBehind k) : j = k := by
  cases j with
  | zero =>
    cases k with
    | zero => rfl
    | succ k => exact absurd h.symm Nat.toDigits_ne_nil
  | succ j =>
    cases k with
    | zero => exact absurd h Nat.toDigits_ne_nil
    | succ k =>
      have hvalue := congrArg (fun digits => Nat.ofDigitChars 10 digits 0) h
      simpa only [digitsBehind, Nat.ofDigitChars_ten_toDigits] using hvalue

theorem candidate_injective {base : String} {j k : Nat}
    (h : (candidate base j).toLower = (candidate base k).toLower) : j = k := by
  have hlist := congrArg String.toList h
  rw [toList_candidate, toList_candidate] at hlist
  exact digitsBehind_injective (List.append_cancel_left hlist)

/-! ## A free candidate -/

/-- When the search ends at a name in use, all the candidates it tried are in use. -/
theorem taken_of_firstFree {taken : List String} {base : String} {k tries : Nat}
    (h : (firstFree taken base k tries).toLower ∈ taken) :
    ∀ i ≤ tries, (candidate base (k + i)).toLower ∈ taken := by
  induction tries generalizing k with
  | zero =>
    intro i hi
    obtain rfl : i = 0 := by omega
    exact h
  | succ tries ih =>
    rw [firstFree] at h
    split at h
    · next htaken =>
      intro i hi
      cases i with
      | zero => exact List.contains_iff_mem.1 htaken
      | succ i =>
        have := ih h i (by omega)
        rwa [Nat.add_assoc, Nat.add_comm 1 i] at this
    · next hfree => exact absurd (List.contains_iff_mem.2 h) hfree

/-- Candidates differ from one another, so no more of them are in use than there are names. -/
theorem le_length_of_taken {taken : List String} {base : String} {k : Nat}
    (h : ∀ i < k, (candidate base i).toLower ∈ taken) : k ≤ taken.length := by
  have hnodup : ((List.range k).map fun i => (candidate base i).toLower).Nodup :=
    List.nodup_range.map fun _ _ hij => candidate_injective hij
  have hsub : (List.range k).map (fun i => (candidate base i).toLower) ⊆ taken := by
    intro name hname
    obtain ⟨i, hi, rfl⟩ := List.mem_map.1 hname
    exact h i (List.mem_range.1 hi)
  have hle := hnodup.length_le_of_subset hsub
  rwa [List.length_map, List.length_range] at hle

theorem fresh_not_taken (taken : List String) (base : String) :
    (fresh taken base).1.toLower ∉ taken := by
  intro h
  have hall : ∀ i < taken.length + 1, (candidate base i).toLower ∈ taken := by
    intro i hi
    have := taken_of_firstFree (k := 0) h i (by omega)
    rwa [Nat.zero_add] at this
  have hle := le_length_of_taken hall
  omega

/-! ## Names in use grow -/

/-- The names in use after a step are those before it and new ones, each of which is new once. -/
def Grows (s t : BodyState) : Prop :=
  ∃ made, t.taken = made ++ s.taken ∧ made.Nodup ∧ ∀ name ∈ made, name ∉ s.taken

theorem Grows.refl (s : BodyState) : Grows s s := ⟨[], rfl, List.nodup_nil, by simp⟩

theorem Grows.of_eq {s t : BodyState} (h : t.taken = s.taken) : Grows s t :=
  ⟨[], h, List.nodup_nil, by simp⟩

theorem Grows.trans {s u t : BodyState} (h1 : Grows s u) (h2 : Grows u t) : Grows s t := by
  obtain ⟨a, ha, hanodup, hanew⟩ := h1
  obtain ⟨b, hb, hbnodup, hbnew⟩ := h2
  have hbold : ∀ name ∈ b, name ∉ a ∧ name ∉ s.taken := by
    intro name hname
    have := hbnew name hname
    rw [ha, List.mem_append, not_or] at this
    exact this
  refine ⟨b ++ a, by rw [hb, ha, List.append_assoc], ?_, ?_⟩
  · refine List.nodup_append.2 ⟨hbnodup, hanodup, ?_⟩
    rintro x hx y hy rfl
    exact (hbold x hx).1 hy
  · intro name hname
    rcases List.mem_append.1 hname with hname | hname
    · exact (hbold name hname).2
    · exact hanew name hname

theorem Grows.fresh (s : BodyState) (base : String) :
    Grows s { s with taken := (fresh s.taken base).2 } := by
  refine ⟨[(Lowering.fresh s.taken base).1.toLower], rfl, List.nodup_singleton _, ?_⟩
  intro name hname
  rw [List.mem_singleton.1 hname]
  exact fresh_not_taken s.taken base

section Statements

variable {routine : Routine} {env : Env} {id : Nat} {s t : BodyState}

theorem grows_of_lowerReDim {preserve : Bool} {arrays : Nat} {out : List Target.Stmt}
    (h : env.lowerReDim id preserve arrays s = .ok (out, t)) : Grows s t := by
  simp only [Env.lowerReDim, Lower.bind_ok, Lower.pure_ok] at h
  obtain ⟨lists, _, h, rfl, rfl⟩ := h
  refine Lower.mapM_ok (R := fun _ s _ t => Grows s t) Grows.refl ?_ h
  intro operand _ _ s b u _ t hoperand hrest
  refine Grows.trans ?_ hrest
  obtain ⟨_, _, _, _, _, _, _, _, _, ⟨_, _, rfl⟩ | ⟨_, base, _, _, _, rfl⟩⟩ :=
    lowerReDimOperand_ok hoperand
  · exact Grows.refl u
  · exact Grows.fresh s base

theorem LowersPlain.grows {out : List Target.Stmt} (h : LowersPlain routine env id s out t) :
    Grows s t := by
  cases h with
  | reDim h hs => exact grows_of_lowerReDim hs
  | goSub => exact Grows.of_eq rfl
  | _ => exact Grows.refl s

theorem grows_of_lowerSelector {expression : Nat} {declared : List Target.Stmt}
    {value : Target.Expr} (h : env.lowerSelector expression s = .ok ((declared, value), t)) :
    Grows s t := by
  obtain ⟨_, _, ⟨_, _, rfl⟩ | ⟨_, _, rfl⟩⟩ := lowerSelector_ok h
  · exact Grows.refl t
  · exact Grows.fresh s "selected"

end Statements

mutual

theorem Lowers.grows {routine : Routine} {env : Env} {id : Nat} {s t : BodyState}
    {out : List Target.Stmt} (h : Lowers routine env id s out t) : Grows s t := by
  match h with
  | .plain h => exact h.grows
  | .preTest _ hb => exact hb.grows
  | .postTest _ _ hb _ => exact (Grows.fresh s "latch").trans hb.grows
  | .counted _ hb => exact hb.grows
  | .element _ hb => exact (Grows.fresh s "enumerator").trans hb.grows
  | .within _ _ _ hb => exact hb.grows
  | .ifBlock _ _ hthen helseIfs helse => exact (hthen.grows.trans helseIfs.grows).trans helse.grows
  | .lineIf _ _ hthen helse => exact hthen.grows.trans helse.grows
  | .select _ hs hcases helse =>
    exact ((grows_of_lowerSelector hs).trans hcases.grows).trans helse.grows

theorem LowersAll.grows {routine : Routine} {env : Env} {ids : List Nat} {s t : BodyState}
    {out : List Target.Stmt} (h : LowersAll routine env ids s out t) : Grows s t := by
  match h with
  | .nil => exact Grows.refl s
  | .cons h hs => exact h.grows.trans hs.grows

theorem LowersBranches.grows {routine : Routine} {env : Env} {value : Option Target.Expr}
    {ids : List Nat} {s t : BodyState} {branches : List Branch}
    (h : LowersBranches routine env value ids s branches t) : Grows s t := by
  match h with
  | .nil => exact Grows.refl s
  | .cons _ hb hs => exact hb.grows.trans hs.grows

theorem LowersElse.grows {routine : Routine} {env : Env} {block : Option Nat} {s t : BodyState}
    {out : List Target.Stmt} (h : LowersElse routine env block s out t) : Grows s t := by
  match h with
  | .none => exact Grows.refl s
  | .some _ hb => exact hb.grows

end

end StructuredBasic.Lowering
