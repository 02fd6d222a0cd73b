import Combinatory.Proofs.Ty.Unification

/-!
# The depth of the search for a solution

Solving an equation goes down the left side as the bindings made so far resolve it, so the number of
levels is at most the height of the resolved left side. Without cycles that height is bounded by the
nodes of the type and of all bound types. A run only binds variables that it finds to types that it
finds, which bounds the nodes that can be added; the bound on the search is never met.
-/

namespace Combinatory

namespace Ty

/-- The number of arrows around the most deeply nested variable. -/
def height : Ty → Nat
  | var _ => 0
  | arrow dom cod => 1 + max dom.height cod.height

theorem height_lt_size (type : Ty) : type.height < type.size := by
  induction type with
  | var name => simp [height, size]
  | arrow dom cod dom_ih cod_ih =>
      simp only [height, size]
      omega

theorem length_freeVars_le (type : Ty) : type.freeVars.length ≤ type.size := by
  induction type with
  | var name => simp [freeVars, size]
  | arrow dom cod dom_ih cod_ih =>
      have filtered := List.length_filter_le (· ∉ dom.freeVars) cod.freeVars
      simp only [freeVars, size, List.length_append]
      omega

end Ty

namespace Subst

/-! ## The height of resolved types -/

/-- The number of variables and arrows in the types that some of the variables are bound to. -/
def nodesOf (subst : Subst) (names : Finset String) : Nat :=
  subst.bindings.foldr
    (fun binding nodes => (if binding.1 ∈ names then binding.2.size else 0) + nodes) 0

theorem mem_bindings_of_get? {subst : Subst} {name : String} {type : Ty}
    (bound : subst.get? name = some type) : (name, type) ∈ subst.bindings := by
  obtain ⟨bindings⟩ := subst
  simp only [get?] at bound
  induction bindings with
  | nil => simp at bound
  | cons binding bindings ih =>
      obtain ⟨key, value⟩ := binding
      rw [List.lookup_cons] at bound
      split at bound <;> simp_all

theorem nodes_filter_le (bindings : List (String × Ty)) (keep : String × Ty → Bool) :
    nodes ⟨bindings.filter keep⟩ ≤ nodes ⟨bindings⟩ := by
  induction bindings with
  | nil => simp
  | cons binding bindings ih =>
      simp only [nodes, List.filter_cons, List.foldr_cons] at ih ⊢
      split
      · simp only [List.foldr_cons]
        omega
      · omega

theorem size_le_nodes {subst : Subst} {name : String} {type : Ty}
    (bound : subst.get? name = some type) : type.size ≤ subst.nodes := by
  obtain ⟨bindings⟩ := subst
  have member := mem_bindings_of_get? bound
  clear bound
  simp only [nodes] at member ⊢
  induction bindings with
  | nil => simp at member
  | cons binding bindings ih =>
      rcases List.mem_cons.mp member with rfl | member
      · simp only [List.foldr_cons]
        omega
      · have := ih member
        simp only [List.foldr_cons]
        omega

theorem nodesOf_le (subst : Subst) (names : Finset String) : subst.nodesOf names ≤ subst.nodes := by
  obtain ⟨bindings⟩ := subst
  induction bindings with
  | nil => simp [nodesOf]
  | cons binding bindings ih =>
      simp only [nodesOf, nodes, List.foldr_cons] at ih ⊢
      split <;> omega

theorem nodesOf_mono (subst : Subst) {fewer names : Finset String} (subset : fewer ⊆ names) :
    subst.nodesOf fewer ≤ subst.nodesOf names := by
  obtain ⟨bindings⟩ := subst
  induction bindings with
  | nil => simp [nodesOf]
  | cons binding bindings ih =>
      simp only [nodesOf, List.foldr_cons] at ih ⊢
      by_cases listed : binding.1 ∈ fewer
      · simp only [if_pos listed, if_pos (subset listed)]
        omega
      · simp only [if_neg listed]
        omega

/-- A bound variable that is not counted any more takes its type with it. -/
theorem nodesOf_erase {subst : Subst} {names : Finset String} {name : String} {type : Ty}
    (bound : subst.get? name = some type) (listed : name ∈ names) :
    type.size + subst.nodesOf (names.erase name) ≤ subst.nodesOf names := by
  obtain ⟨bindings⟩ := subst
  have member := mem_bindings_of_get? bound
  clear bound
  induction bindings with
  | nil => simp at member
  | cons binding bindings ih =>
      have fewer := nodesOf_mono ⟨bindings⟩ (Finset.erase_subset name names)
      simp only [nodesOf, List.foldr_cons] at fewer ih member ⊢
      rcases List.mem_cons.mp member with rfl | member
      · simp only [Finset.notMem_erase, if_false, if_pos listed]
        omega
      · have rest := ih member
        by_cases kept : binding.1 ∈ names.erase name
        · simp only [if_pos kept, if_pos (Finset.mem_of_mem_erase kept)]
          omega
        · simp only [if_neg kept]
          omega

/-- A chain of bindings uses none of them twice, so the height of a resolved type is bounded by the
types that the variables on its chains are bound to. -/
theorem Acyclic.height_resolve_le_nodesOf {subst : Subst} (acyclic : subst.Acyclic)
    (names : Finset String) (type : Ty)
    (listed : ∀ name, type.mentions name = true → ∀ other, subst.Reaches name other →
      other ∈ subst.keys → other ∈ names) :
    (subst.resolve type).height ≤ type.height + subst.nodesOf names := by
  induction type using acyclic.induction generalizing names with
  | free name free => simp [resolve_free free, Ty.height]
  | bound name type bound ih =>
      have name_listed : name ∈ names :=
        listed name (by simp [Ty.mentions]) name .refl (mem_keys_iff.mpr ⟨type, bound⟩)
      have type_height : (subst.resolve type).height ≤
          type.height + subst.nodesOf (names.erase name) := by
        apply ih
        intro first occurs other chain key
        have step := leads_of_get? bound occurs
        apply Finset.mem_erase.mpr
        refine ⟨?_, listed name (by simp [Ty.mentions]) other (chain.head step) key⟩
        rintro rfl
        exact acyclic other (.head' step chain)
      have paid := nodesOf_erase bound name_listed
      have lower := type.height_lt_size
      rw [acyclic.resolve_bound bound, Ty.height]
      omega
  | arrow dom cod dom_ih cod_ih =>
      have dom_height := dom_ih names fun name occurs =>
        listed name (by simp [Ty.mentions, occurs])
      have cod_height := cod_ih names fun name occurs =>
        listed name (by simp [Ty.mentions, occurs])
      simp only [resolve_arrow, Ty.height]
      omega

theorem Acyclic.height_resolve_le {subst : Subst} (acyclic : subst.Acyclic) (type : Ty) :
    (subst.resolve type).height ≤ type.height + subst.nodes := by
  have height := acyclic.height_resolve_le_nodesOf subst.keys.toFinset type
    fun _ _ _ _ key => List.mem_toFinset.mpr key
  have fewer := subst.nodesOf_le subst.keys.toFinset
  omega

/-! ## What a run can bind -/

/-- The type has at most so many nodes, and only the given variables occur in it. -/
structure Fits (names : Finset String) (limit : Nat) (type : Ty) : Prop where
  /-- The number of nodes. -/
  size_le : type.size ≤ limit
  /-- The variables that occur. -/
  listed : ∀ name, type.mentions name = true → name ∈ names

/-- What stays true of a substitution while an equation is solved: all bound types fit, and the
nodes bound so far, with as many again for every variable that may still be bound, are within a
budget. -/
structure Confined (names : Finset String) (limit budget : Nat) (subst : Subst) : Prop where
  /-- No variable leads back to itself. -/
  acyclic : subst.Acyclic
  /-- All bound types fit. -/
  fits : ∀ name type, subst.get? name = some type → Fits names limit type
  /-- What is bound and may still be bound is within the budget. -/
  affordable :
    subst.nodes + limit * (names.filter fun name => subst.get? name = none).card ≤ budget

section Confinement

variable {names : Finset String} {limit budget : Nat}

theorem Fits.dom {dom cod : Ty} (fits : Fits names limit (.arrow dom cod)) :
    Fits names limit dom where
  size_le := by
    have := fits.size_le
    simp only [Ty.size] at this
    omega
  listed name occurs := fits.listed name (by simp [Ty.mentions, occurs])

theorem Fits.cod {dom cod : Ty} (fits : Fits names limit (.arrow dom cod)) :
    Fits names limit cod where
  size_le := by
    have := fits.size_le
    simp only [Ty.size] at this
    omega
  listed name occurs := fits.listed name (by simp [Ty.mentions, occurs])

theorem Confined.walk {subst : Subst} (confined : Confined names limit budget subst) {type : Ty}
    (fits : Fits names limit type) : Fits names limit (subst.walk type) := by
  induction type using confined.acyclic.induction with
  | free name free => rwa [walk_free free]
  | bound name type bound ih =>
      rw [confined.acyclic.walk_bound bound]
      exact ih (confined.fits name type bound)
  | arrow dom cod => rwa [walk_arrow]

/-- Binding one more variable is paid for by the variable being bound. -/
theorem Confined.bindVar {subst after : Subst} (confined : Confined names limit budget subst)
    {name : String} {type : Ty} (free : subst.get? name = none) (listed : name ∈ names)
    (fits : Fits names limit type) (ok : subst.bindVar name type = .ok after) :
    Confined names limit budget after := by
  obtain ⟨rfl, absent⟩ := bindVar_ok ok
  refine ⟨confined.acyclic.insert free absent, ?_, ?_⟩
  · intro other value stored
    rcases get?_insert_eq_some stored with ⟨-, rfl⟩ | ⟨-, stored⟩
    · exact fits
    · exact confined.fits other value stored
  · have nodes_le : (subst.insert name type).nodes ≤ type.size + subst.nodes :=
      Nat.add_le_add_left (nodes_filter_le _ _) type.size
    have unbound_eq : (names.filter fun other => (subst.insert name type).get? other = none) =
        (names.filter fun other => subst.get? other = none).erase name := by
      ext other
      by_cases same : other = name <;> simp [get?_insert, same]
    have card_eq := Finset.card_erase_add_one
      (Finset.mem_filter.mpr ⟨listed, free⟩ :
        name ∈ names.filter fun other => subst.get? other = none)
    have affordable := confined.affordable
    rw [← card_eq, Nat.mul_add, Nat.mul_one] at affordable
    rw [unbound_eq]
    have := fits.size_le
    omega

/-- A run that begins within a budget ends within it. -/
theorem UnifiesTo.confined {subst after : Subst} {left right : Ty}
    (run : UnifiesTo subst left right (.ok after)) (confined : Confined names limit budget subst)
    (left_fits : Fits names limit left) (right_fits : Fits names limit right) :
    Confined names limit budget after := by
  generalize outcome_eq : Except.ok after = outcome at run
  induction run generalizing after with
  | equal =>
      cases outcome_eq
      exact confined
  | @bindLeft _ _ _ name left_end _ =>
      have listed : name ∈ names :=
        (left_end ▸ confined.walk left_fits).listed name (by simp [Ty.mentions])
      exact confined.bindVar (confined.acyclic.get?_walk left_end) listed
        (confined.walk right_fits) outcome_eq.symm
  | @bindRight _ _ _ _ _ name _ right_end =>
      have listed : name ∈ names :=
        (right_end ▸ confined.walk right_fits).listed name (by simp [Ty.mentions])
      exact confined.bindVar (confined.acyclic.get?_walk right_end) listed
        (confined.walk left_fits) outcome_eq.symm
  | refuse => cases outcome_eq
  | descend left_end right_end _ _ dom_ih cod_ih =>
      have left_parts := left_end ▸ confined.walk left_fits
      have right_parts := right_end ▸ confined.walk right_fits
      have middle := dom_ih confined left_parts.dom right_parts.dom rfl
      exact cod_ih middle left_parts.cod right_parts.cod outcome_eq

/-- A search is deep enough if it is deeper than the left side can get. -/
theorem unifyWithin_ne_cyclic {levels : Nat} {subst : Subst} {left right : Ty}
    (confined : Confined names limit budget subst) (left_fits : Fits names limit left)
    (right_fits : Fits names limit right)
    (deep : ∀ after, Confined names limit budget after → subst.Extends after →
      (after.resolve left).height < levels) :
    unifyWithin levels subst left right ≠ .error .cyclic := by
  induction levels generalizing subst left right with
  | zero => exact absurd (deep subst confined (.refl subst)) (by omega)
  | succ levels ih =>
      rcases unifyWithin_cases levels subst left right with
        ⟨-, outcome⟩ | ⟨name, -, -, outcome⟩ | ⟨dom, cod, name, -, -, outcome⟩ |
        ⟨leftDom, leftCod, rightDom, rightCod, left_end, right_end, -, outcome⟩
      all_goals rw [outcome]
      · simp
      · exact bindVar_ne_cyclic subst name _
      · exact bindVar_ne_cyclic subst name _
      · have left_parts := left_end ▸ confined.walk left_fits
        have right_parts := right_end ▸ confined.walk right_fits
        -- Both parts of the left side are lower than the left side itself.
        have lower (after : Subst) (after_confined : Confined names limit budget after)
            (extended : subst.Extends after) :
            (after.resolve leftDom).height < levels ∧ (after.resolve leftCod).height < levels := by
          have height := deep after after_confined extended
          rw [← extended.resolve_walk confined.acyclic after_confined.acyclic, left_end,
            resolve_arrow, Ty.height] at height
          omega
        have dom_finished := ih confined left_parts.dom right_parts.dom
          fun after after_confined extended => (lower after after_confined extended).1
        cases dom : unifyWithin levels subst leftDom rightDom with
        | error failure => rwa [dom] at dom_finished
        | ok middle =>
            have run := unifiesTo_unifyWithin dom_finished
            rw [dom] at run
            have middle_confined := run.confined confined left_parts.dom right_parts.dom
            have first := (run.sound confined.acyclic).2.1
            exact ih middle_confined left_parts.cod right_parts.cod
              fun after after_confined second =>
                (lower after after_confined (first.trans second)).2

end Confinement

/-! ## The bound -/

/-- The variables of an equation and of all bound types. -/
def namesOf (subst : Subst) (left right : Ty) : Finset String :=
  (left.freeVars ++ right.freeVars ++ subst.bindings.flatMap (·.2.freeVars)).toFinset

theorem card_namesOf_le (subst : Subst) (left right : Ty) :
    (subst.namesOf left right).card ≤ subst.nodes + left.size + right.size := by
  have bound_le (bindings : List (String × Ty)) :
      (bindings.flatMap (·.2.freeVars)).length ≤ nodes ⟨bindings⟩ := by
    induction bindings with
    | nil => simp
    | cons binding bindings ih =>
        have := binding.2.length_freeVars_le
        simp only [nodes, List.flatMap_cons, List.length_append, List.foldr_cons] at ih ⊢
        omega
  have listed := List.toFinset_card_le
    (left.freeVars ++ right.freeVars ++ subst.bindings.flatMap (·.2.freeVars))
  have := left.length_freeVars_le
  have := right.length_freeVars_le
  have bound_length : _ ≤ subst.nodes := bound_le subst.bindings
  simp only [namesOf, List.length_append] at listed ⊢
  omega

/-- Without cycles the search for a solution is deep enough. -/
theorem Acyclic.unify_ne_cyclic {subst : Subst} (acyclic : subst.Acyclic) (left right : Ty) :
    subst.unify left right ≠ .error .cyclic := by
  let names := subst.namesOf left right
  let limit := subst.nodes + left.size + right.size
  have confined : Confined names limit (subst.nodes + limit * limit) subst := by
    refine ⟨acyclic, ?_, ?_⟩
    · intro name type bound
      have size_le := size_le_nodes bound
      refine ⟨by omega, fun other occurs => ?_⟩
      simp only [names, namesOf, List.mem_toFinset, List.mem_append, List.mem_flatMap]
      exact .inr ⟨_, mem_bindings_of_get? bound, Ty.mem_freeVars.mpr occurs⟩
    · have unbound_le := (Finset.card_filter_le names fun name => subst.get? name = none).trans
        (subst.card_namesOf_le left right)
      exact Nat.add_le_add_left (Nat.mul_le_mul_left limit unbound_le) subst.nodes
  apply unifyWithin_ne_cyclic confined
  · refine ⟨by omega, fun name occurs => ?_⟩
    simp [names, namesOf, Ty.mem_freeVars, occurs]
  · refine ⟨by omega, fun name occurs => ?_⟩
    simp [names, namesOf, Ty.mem_freeVars, occurs]
  · intro after after_confined _
    have height := after_confined.acyclic.height_resolve_le left
    have lower := left.height_lt_size
    have nodes_le : after.nodes ≤ subst.nodes + limit * limit := by
      have := after_confined.affordable
      omega
    have depth_eq : subst.searchDepth left right = limit * limit + limit + (limit + 1) := by
      simp only [searchDepth]
      rw [Nat.mul_succ, Nat.succ_mul]
    omega

/-- Solving an equation without cycles is a run to its outcome. -/
theorem Acyclic.unifiesTo_unify {subst : Subst} (acyclic : subst.Acyclic) (left right : Ty) :
    UnifiesTo subst left right (subst.unify left right) :=
  unifiesTo_unifyWithin (acyclic.unify_ne_cyclic left right)

end Subst
end Combinatory
