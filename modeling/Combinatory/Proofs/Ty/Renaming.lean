import Combinatory.Proofs.Ty.MostGeneral
import Combinatory.Proofs.Ty.Variant
import Combinatory.Ty.Printing
import Mathlib.Data.Set.Finite.Basic

/-!
# Unification under other names

Nothing that is done to solve an equation looks into a name. So if the variables of an equation and
of a substitution are given other names, of which no two are the same, every step is the step under
the old names with its outcome renamed, down to what a failure reports. In particular a failure is
about variables of the equation only: any other variable could be exchanged for one that does not
occur in the failure.
-/

namespace Combinatory

namespace Ty

section

variable {rename : String → String}

@[simp]
theorem mapVars_var (rename : String → String) (name : String) :
    (var name).mapVars rename = var (rename name) := rfl

@[simp]
theorem mapVars_arrow (rename : String → String) (dom cod : Ty) :
    (arrow dom cod).mapVars rename = arrow (dom.mapVars rename) (cod.mapVars rename) := rfl

/-- Renaming after a replacement is renaming what is put in. -/
theorem mapVars_bind (rename : String → String) (replacement : String → Ty) (type : Ty) :
    (type.bind replacement).mapVars rename =
      type.bind fun name => (replacement name).mapVars rename :=
  bind_bind _ _ _

/-- A replacement after a renaming is looked up under the new names. -/
theorem bind_mapVars (rename : String → String) (replacement : String → Ty) (type : Ty) :
    (type.mapVars rename).bind replacement = type.bind fun name => replacement (rename name) :=
  bind_bind _ _ _

/-- Only the names that occur in a type are renamed. -/
theorem mapVars_eq_self {type : Ty}
    (kept : ∀ name, type.mentions name = true → rename name = name) :
    type.mapVars rename = type :=
  (bind_congr fun name occurs => congrArg var (kept name occurs)).trans (bind_var type)

theorem mapVars_injective (distinct : Function.Injective rename) :
    Function.Injective (mapVars rename) := by
  intro first second same
  induction first generalizing second with
  | var name =>
      cases second with
      | var other => exact congrArg var (distinct (Ty.var.inj same))
      | arrow dom cod => cases same
  | arrow dom cod dom_ih cod_ih =>
      cases second with
      | var other => cases same
      | arrow otherDom otherCod =>
          obtain ⟨dom_same, cod_same⟩ := Ty.arrow.inj same
          rw [dom_ih dom_same, cod_ih cod_same]

theorem mentions_mapVars (distinct : Function.Injective rename) (type : Ty) (name : String) :
    (type.mapVars rename).mentions (rename name) = type.mentions name := by
  induction type with
  | var other => simp [mentions, distinct.eq_iff]
  | arrow dom cod dom_ih cod_ih => simp [mentions, dom_ih, cod_ih]

end

end Ty

namespace UnificationFailure

/-- Give every variable of a failure another name. -/
def mapVars (rename : String → String) : UnificationFailure → UnificationFailure
  | infinite name type => infinite (rename name) (type.mapVars rename)
  | cyclic => cyclic

/-- Does the variable occur in the failure? -/
def mentions (name : String) : UnificationFailure → Bool
  | infinite bound type => (Ty.arrow (.var bound) type).mentions name
  | cyclic => false

/-- The variable of a failure and its type are numbered together. -/
theorem renumber_infinite (name : String) (type : Ty) :
    (infinite name type).renumber =
      infinite (Ty.drawnName ((Ty.arrow (.var name) type).vars.idxOf name))
        (type.bind fun other =>
          .var (Ty.drawnName ((Ty.arrow (.var name) type).vars.idxOf other))) := by
  simp only [renumber, Ty.renumber, Ty.relabel, Ty.bind]

/-- Failures that differ by the names of their variables are numbered in the same way. -/
theorem renumber_mapVars {rename : String → String} (distinct : Function.Injective rename)
    (failure : UnificationFailure) : (failure.mapVars rename).renumber = failure.renumber := by
  cases failure with
  | infinite name type =>
      rw [mapVars, renumber_infinite, renumber_infinite]
      have same : ((Ty.arrow (.var name) type).mapVars rename).relabel Ty.drawnName = _ :=
        Ty.relabel_mapVars_of_injOn Ty.drawnName distinct.injOn
      simp only [Ty.mapVars_arrow, Ty.mapVars_var, Ty.relabel, Ty.bind] at same
      obtain ⟨name_same, type_same⟩ := Ty.arrow.inj same
      rw [Ty.var.inj name_same, type_same]
  | cyclic => rfl

end UnificationFailure

namespace Subst

/-- Give every variable of a substitution another name, in its keys and in the bound types. -/
def mapVars (rename : String → String) (subst : Subst) : Subst :=
  ⟨subst.bindings.map fun (name, type) => (rename name, type.mapVars rename)⟩

/-- The outcome of solving an equation under other names. -/
def outcomeUnder (rename : String → String) :
    Except UnificationFailure Subst → Except UnificationFailure Subst
  | .ok after => .ok (after.mapVars rename)
  | .error failure => .error (failure.mapVars rename)

section

variable {rename : String → String}

@[simp]
theorem mapVars_empty (rename : String → String) : empty.mapVars rename = empty := rfl

@[simp]
theorem size_mapVars (rename : String → String) (subst : Subst) :
    (subst.mapVars rename).size = subst.size := by
  simp [size, mapVars]

theorem nodes_mapVars (rename : String → String) (subst : Subst) :
    (subst.mapVars rename).nodes = subst.nodes := by
  obtain ⟨bindings⟩ := subst
  simp [nodes, mapVars, List.foldr_map, Ty.size_mapVars]

theorem searchDepth_mapVars (rename : String → String) (subst : Subst) (left right : Ty) :
    (subst.mapVars rename).searchDepth (left.mapVars rename) (right.mapVars rename) =
      subst.searchDepth left right := by
  simp [searchDepth, nodes_mapVars, Ty.size_mapVars]

theorem get?_mapVars (distinct : Function.Injective rename) (subst : Subst) (name : String) :
    (subst.mapVars rename).get? (rename name) = (subst.get? name).map (Ty.mapVars rename) := by
  obtain ⟨bindings⟩ := subst
  simp only [get?, mapVars]
  induction bindings with
  | nil => rfl
  | cons binding bindings ih =>
      obtain ⟨key, value⟩ := binding
      by_cases same : name = key
      · simp [same]
      · have name_ne : (name == key) = false := by simp [same]
        have rename_ne : (rename name == rename key) = false := by simp [distinct.eq_iff, same]
        rw [List.map_cons, List.lookup_cons, List.lookup_cons, name_ne, rename_ne, ih]

theorem insert_mapVars (distinct : Function.Injective rename) (subst : Subst) (name : String)
    (type : Ty) :
    (subst.mapVars rename).insert (rename name) (type.mapVars rename) =
      (subst.insert name type).mapVars rename := by
  have kept : ((fun binding : String × Ty => binding.1 != rename name) ∘
      fun binding : String × Ty => (rename binding.1, binding.2.mapVars rename)) =
        fun binding => binding.1 != name := by
    funext binding
    simp [bne, distinct.eq_iff]
  simp [insert, mapVars, List.filter_map, kept]

/-! ## Chasing bindings -/

theorem walkFor_mapVars (distinct : Function.Injective rename) (subst : Subst) (steps : Nat)
    (type : Ty) :
    (subst.mapVars rename).walkFor steps (type.mapVars rename) =
      (subst.walkFor steps type).mapVars rename := by
  induction steps generalizing type with
  | zero => simp [walkFor]
  | succ steps ih =>
      cases type with
      | arrow dom cod => rfl
      | var name =>
          simp only [Ty.mapVars_var, walkFor, get?_mapVars distinct]
          cases subst.get? name with
          | none => rfl
          | some bound => exact ih bound

theorem walk_mapVars (distinct : Function.Injective rename) (subst : Subst) (type : Ty) :
    (subst.mapVars rename).walk (type.mapVars rename) = (subst.walk type).mapVars rename := by
  rw [walk, size_mapVars]
  exact walkFor_mapVars distinct subst subst.size type

theorem resolveVar_mapVars (distinct : Function.Injective rename) (subst : Subst) (depth : Nat)
    (name : String) :
    (subst.mapVars rename).resolveVar depth (rename name) =
      (subst.resolveVar depth name).mapVars rename := by
  induction depth generalizing name with
  | zero => rfl
  | succ depth ih =>
      simp only [resolveVar, get?_mapVars distinct]
      cases subst.get? name with
      | none => rfl
      | some bound =>
          simp only [Option.map_some]
          rw [Ty.bind_mapVars, Ty.mapVars_bind]
          simp only [ih]

theorem resolve_mapVars (distinct : Function.Injective rename) (subst : Subst) (type : Ty) :
    (subst.mapVars rename).resolve (type.mapVars rename) =
      (subst.resolve type).mapVars rename := by
  simp only [resolve, size_mapVars]
  rw [Ty.bind_mapVars, Ty.mapVars_bind]
  simp only [resolveVar_mapVars distinct]

/-! ## Solving -/

theorem bindVar_mapVars (distinct : Function.Injective rename) (subst : Subst) (name : String)
    (type : Ty) :
    (subst.mapVars rename).bindVar (rename name) (type.mapVars rename) =
      outcomeUnder rename (subst.bindVar name type) := by
  simp only [bindVar, resolve_mapVars distinct, Ty.mentions_mapVars distinct]
  split
  · rfl
  · rw [insert_mapVars distinct]
    rfl

/-- The search goes the same way at every level, as ends of walks are the same under their new names
exactly if they were the same under the old ones. -/
theorem unifyWithin_mapVars (distinct : Function.Injective rename) (levels : Nat) (subst : Subst)
    (left right : Ty) :
    unifyWithin levels (subst.mapVars rename) (left.mapVars rename) (right.mapVars rename) =
      outcomeUnder rename (unifyWithin levels subst left right) := by
  induction levels generalizing subst left right with
  | zero => rfl
  | succ levels ih =>
      simp only [unifyWithin, walk_mapVars distinct, (Ty.mapVars_injective distinct).eq_iff]
      split
      · rfl
      cases subst.walk left with
      | var name =>
          cases subst.walk right <;> exact bindVar_mapVars distinct subst name _
      | arrow leftDom leftCod =>
          cases subst.walk right with
          | var name => exact bindVar_mapVars distinct subst name (.arrow leftDom leftCod)
          | arrow rightDom rightCod =>
              simp only [Ty.mapVars_arrow, ih]
              cases unifyWithin levels subst leftDom rightDom with
              | error failure => rfl
              | ok extended => exact ih extended leftCod rightCod

/-- Solving an equation under other names has the outcome of solving it, under these names. -/
theorem unify_mapVars (distinct : Function.Injective rename) (subst : Subst) (left right : Ty) :
    (subst.mapVars rename).unify (left.mapVars rename) (right.mapVars rename) =
      outcomeUnder rename (subst.unify left right) := by
  rw [unify, searchDepth_mapVars]
  exact unifyWithin_mapVars distinct _ subst left right

/-! ## What a failure is about -/

/-- Some name is in none of finitely many types. -/
theorem exists_unused (types : List Ty) :
    ∃ name, ∀ type ∈ types, type.mentions name = false := by
  obtain ⟨name, -, unlisted⟩ := (Set.infinite_range_of_injective
    Ty.drawnName_injective).exists_notMem_finset (types.flatMap Ty.vars).toFinset
  refine ⟨name, fun type member => ?_⟩
  simp only [List.mem_toFinset, List.mem_flatMap, not_exists, not_and, Ty.mem_vars] at unlisted
  simpa using unlisted type member

/-- A variable of a failure is one of the equation: otherwise it could be exchanged for an unused
one, which changes the failure and not the equation. -/
theorem mentions_of_unify_failure {left right : Ty} {failure : UnificationFailure} {name : String}
    (failed : empty.unify left right = .error failure) (occurs : failure.mentions name = true) :
    left.mentions name = true ∨ right.mentions name = true := by
  by_contra! absent
  obtain ⟨bound, type, rfl⟩ : ∃ bound type, failure = .infinite bound type := by
    cases failure with
    | infinite bound type => exact ⟨bound, type, rfl⟩
    | cyclic => cases occurs
  obtain ⟨unused, nowhere⟩ := exists_unused [left, right, .arrow (.var bound) type]
  simp only [List.mem_cons, List.not_mem_nil, or_false, forall_eq_or_imp, forall_eq] at nowhere
  obtain ⟨left_unused, right_unused, failure_unused⟩ := nowhere
  let exchange : String → String := Equiv.swap name unused
  have distinct : Function.Injective exchange := (Equiv.swap name unused).injective
  have untouched {side : Ty} (no_name : ¬ side.mentions name = true)
      (no_unused : side.mentions unused = false) : side.mapVars exchange = side := by
    apply Ty.mapVars_eq_self
    intro other other_occurs
    apply Equiv.swap_apply_of_ne_of_ne
    · rintro rfl
      exact no_name other_occurs
    · rintro rfl
      simp [no_unused] at other_occurs
  have renamed := unify_mapVars distinct empty left right
  rw [mapVars_empty, untouched absent.1 left_unused, untouched absent.2 right_unused, failed]
    at renamed
  have same : (Ty.arrow (.var bound) type).mapVars exchange = .arrow (.var bound) type := by
    obtain ⟨name_same, type_same⟩ := UnificationFailure.infinite.inj (Except.error.inj renamed)
    rw [Ty.mapVars_arrow, Ty.mapVars_var, ← name_same, ← type_same]
  have moved := Ty.mentions_mapVars distinct (.arrow (.var bound) type) name
  rw [same, show exchange name = unused from Equiv.swap_apply_left name unused,
    failure_unused] at moved
  exact Bool.false_ne_true (moved.trans occurs)

end

end Subst
end Combinatory
