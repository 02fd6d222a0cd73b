import Combinatory.Proofs.Ty.MostGeneral

/-!
# Solving without bounds

`walk`, `resolve` and `unify` stop at bounds that are never met without cycles. This file states the
same procedures without bounds, by the ways in which they come to an end. Without cycles each of
them ends in exactly one way, with what the bounded procedure gives; on a cycle resolving does not
end at all. What solving an equation adds to a substitution is read off its run: only variables that
the two sides resolve to are bound, and nothing is bound where they resolve to the same type.
-/

namespace Combinatory
namespace Subst

/-! ## Procedures without bounds -/

/-- Following bindings from the first type ends at the second one. -/
inductive WalkEnds (subst : Subst) : Ty → Ty → Prop
  /-- A function type is not followed. -/
  | arrow (dom cod : Ty) : WalkEnds subst (.arrow dom cod) (.arrow dom cod)
  /-- An unbound variable leads no further. -/
  | free {name : String} (unbound : subst.get? name = none) :
      WalkEnds subst (.var name) (.var name)
  /-- A bound variable is followed to its type, and on from there. -/
  | bound {name : String} {type last : Ty} (stored : subst.get? name = some type)
      (rest : WalkEnds subst type last) : WalkEnds subst (.var name) last

/-- Resolving the first type ends with the second one. -/
inductive ResolveEnds (subst : Subst) : Ty → Ty → Prop
  /-- The walk ends at an unbound variable. -/
  | var {type : Ty} {name : String} (walk : subst.WalkEnds type (.var name)) :
      ResolveEnds subst type (.var name)
  /-- The walk ends at a function type, of which both parts are resolved. -/
  | arrow {type dom cod domResolved codResolved : Ty} (walk : subst.WalkEnds type (.arrow dom cod))
      (dom_ends : ResolveEnds subst dom domResolved)
      (cod_ends : ResolveEnds subst cod codResolved) :
      ResolveEnds subst type (.arrow domResolved codResolved)

/-- Binding the variable to the type ends with the outcome. -/
inductive BindEnds (subst : Subst) (name : String) (type : Ty) :
    Except UnificationFailure Subst → Prop
  /-- The variable occurs in what the type resolves to. -/
  | refuse {resolved : Ty} (resolve : subst.ResolveEnds type resolved)
      (occurs : resolved.mentions name = true) :
      BindEnds subst name type (.error (.infinite name resolved))
  /-- The variable does not occur in what the type resolves to. -/
  | insert {resolved : Ty} (resolve : subst.ResolveEnds type resolved)
      (absent : resolved.mentions name = false) :
      BindEnds subst name type (.ok (subst.insert name type))

/-- Solving the equation ends with the outcome. -/
inductive UnifyEnds : Subst → Ty → Ty → Except UnificationFailure Subst → Prop
  /-- Both walks end at the same type. -/
  | equal {subst : Subst} {left right last : Ty} (left_walk : subst.WalkEnds left last)
      (right_walk : subst.WalkEnds right last) : UnifyEnds subst left right (.ok subst)
  /-- The left walk ends at an unbound variable, the right one elsewhere. -/
  | bindLeft {subst : Subst} {left right last : Ty} {name : String}
      {outcome : Except UnificationFailure Subst} (left_walk : subst.WalkEnds left (.var name))
      (right_walk : subst.WalkEnds right last) (differ : last ≠ .var name)
      (bind : subst.BindEnds name last outcome) : UnifyEnds subst left right outcome
  /-- Only the right walk ends at an unbound variable. -/
  | bindRight {subst : Subst} {left right dom cod : Ty} {name : String}
      {outcome : Except UnificationFailure Subst} (left_walk : subst.WalkEnds left (.arrow dom cod))
      (right_walk : subst.WalkEnds right (.var name))
      (bind : subst.BindEnds name (.arrow dom cod) outcome) : UnifyEnds subst left right outcome
  /-- The domains of two different function types cannot be made equal. -/
  | refuse {subst : Subst} {left right leftDom leftCod rightDom rightCod : Ty}
      {failure : UnificationFailure} (left_walk : subst.WalkEnds left (.arrow leftDom leftCod))
      (right_walk : subst.WalkEnds right (.arrow rightDom rightCod))
      (differ : Ty.arrow leftDom leftCod ≠ .arrow rightDom rightCod)
      (dom : UnifyEnds subst leftDom rightDom (.error failure)) :
      UnifyEnds subst left right (.error failure)
  /-- After the domains of two different function types the codomains are solved. -/
  | descend {subst extended : Subst} {left right leftDom leftCod rightDom rightCod : Ty}
      {outcome : Except UnificationFailure Subst}
      (left_walk : subst.WalkEnds left (.arrow leftDom leftCod))
      (right_walk : subst.WalkEnds right (.arrow rightDom rightCod))
      (differ : Ty.arrow leftDom leftCod ≠ .arrow rightDom rightCod)
      (dom : UnifyEnds subst leftDom rightDom (.ok extended))
      (cod : UnifyEnds extended leftCod rightCod outcome) : UnifyEnds subst left right outcome

/-! ## One end at most -/

section

variable {subst : Subst} {type : Ty}

theorem WalkEnds.unique {first second : Ty} (one : subst.WalkEnds type first)
    (two : subst.WalkEnds type second) : first = second := by
  induction one with
  | arrow dom cod =>
      cases two
      rfl
  | free unbound =>
      cases two with
      | free => rfl
      | bound stored => simp [unbound] at stored
  | bound stored _ ih =>
      cases two with
      | free unbound => simp [unbound] at stored
      | bound stored' rest =>
          obtain rfl := Option.some.inj (stored.symm.trans stored')
          exact ih rest

theorem ResolveEnds.unique {first second : Ty} (one : subst.ResolveEnds type first)
    (two : subst.ResolveEnds type second) : first = second := by
  induction one generalizing second with
  | var walk =>
      cases two with
      | var walk' => exact walk.unique walk'
      | arrow walk' => cases walk.unique walk'
  | arrow walk _ _ dom_ih cod_ih =>
      cases two with
      | var walk' => cases walk.unique walk'
      | arrow walk' dom_ends cod_ends =>
          cases walk.unique walk'
          rw [dom_ih dom_ends, cod_ih cod_ends]

theorem BindEnds.unique {name : String} {first second : Except UnificationFailure Subst}
    (one : subst.BindEnds name type first) (two : subst.BindEnds name type second) :
    first = second := by
  rcases one with ⟨resolve, occurs⟩ | ⟨resolve, absent⟩ <;>
    rcases two with ⟨resolve', occurs'⟩ | ⟨resolve', absent'⟩ <;>
      obtain rfl := resolve.unique resolve'
  · rfl
  · simp [occurs] at absent'
  · simp [occurs'] at absent
  · rfl

theorem UnifyEnds.unique {subst : Subst} {left right : Ty}
    {first second : Except UnificationFailure Subst} (one : UnifyEnds subst left right first)
    (two : UnifyEnds subst left right second) : first = second := by
  -- Where the walks end is settled by `WalkEnds.unique`, and no two rules share their ends.
  induction one generalizing second with
  | equal left_walk right_walk =>
      cases two <;> grind [WalkEnds.unique]
  | bindLeft left_walk right_walk differ bind =>
      cases two <;> grind [WalkEnds.unique, BindEnds.unique]
  | bindRight left_walk right_walk bind =>
      cases two <;> grind [WalkEnds.unique, BindEnds.unique]
  | refuse left_walk right_walk differ _ ih =>
      cases two <;> grind [WalkEnds.unique]
  | descend left_walk right_walk differ _ _ dom_ih cod_ih =>
      cases two <;> grind [WalkEnds.unique]

/-! ## Every procedure ends without cycles -/

theorem Acyclic.walkEnds_walk (acyclic : subst.Acyclic) (type : Ty) :
    subst.WalkEnds type (subst.walk type) := by
  induction type using acyclic.induction with
  | free name free =>
      rw [walk_free free]
      exact .free free
  | bound name type bound ih =>
      rw [acyclic.walk_bound bound]
      exact .bound bound ih
  | arrow dom cod =>
      rw [walk_arrow]
      exact .arrow dom cod

theorem ResolveEnds.of_bound {name : String} {resolved : Ty} (stored : subst.get? name = some type)
    (resolve : subst.ResolveEnds type resolved) : subst.ResolveEnds (.var name) resolved := by
  cases resolve with
  | var walk => exact .var (.bound stored walk)
  | arrow walk dom_ends cod_ends => exact .arrow (.bound stored walk) dom_ends cod_ends

theorem Acyclic.resolveEnds_resolve (acyclic : subst.Acyclic) (type : Ty) :
    subst.ResolveEnds type (subst.resolve type) := by
  induction type using acyclic.induction with
  | free name free =>
      rw [resolve_free free]
      exact .var (.free free)
  | bound name type bound ih =>
      rw [acyclic.resolve_bound bound]
      exact .of_bound bound ih
  | arrow dom cod dom_ih cod_ih => exact .arrow (.arrow dom cod) dom_ih cod_ih

theorem Acyclic.bindEnds_bindVar (acyclic : subst.Acyclic) (name : String) (type : Ty) :
    subst.BindEnds name type (subst.bindVar name type) := by
  rcases bindVar_cases subst name type with ⟨bound, absent⟩ | ⟨failed, occurs⟩
  · rw [bound]
    exact .insert (acyclic.resolveEnds_resolve type) absent
  · rw [failed]
    exact .refuse (acyclic.resolveEnds_resolve type) occurs

/-- A search that is deep enough ends as the search without a bound does. -/
theorem Acyclic.unifyEnds_unifyWithin {levels : Nat} {subst : Subst} {left right : Ty}
    (acyclic : subst.Acyclic) (finished : unifyWithin levels subst left right ≠ .error .cyclic) :
    UnifyEnds subst left right (unifyWithin levels subst left right) := by
  induction levels generalizing subst left right with
  | zero => exact absurd rfl finished
  | succ levels ih =>
      have left_walk := acyclic.walkEnds_walk left
      have right_walk := acyclic.walkEnds_walk right
      rcases unifyWithin_cases levels subst left right with
        ⟨same, outcome⟩ | ⟨name, left_end, differ, outcome⟩ |
        ⟨dom, cod, name, left_end, right_end, outcome⟩ |
        ⟨leftDom, leftCod, rightDom, rightCod, left_end, right_end, differ, outcome⟩
      all_goals rw [outcome] at finished ⊢
      · exact .equal left_walk (same ▸ right_walk)
      · exact .bindLeft (left_end ▸ left_walk) right_walk differ (acyclic.bindEnds_bindVar name _)
      · exact .bindRight (left_end ▸ left_walk) (right_end ▸ right_walk)
          (acyclic.bindEnds_bindVar name _)
      · rw [left_end] at left_walk
        rw [right_end] at right_walk
        cases dom : unifyWithin levels subst leftDom rightDom with
        | error failure =>
            simp only [dom] at finished ⊢
            exact .refuse left_walk right_walk differ (dom ▸ ih acyclic (dom ▸ finished))
        | ok extended =>
            simp only [dom] at finished ⊢
            have dom_finished : unifyWithin levels subst leftDom rightDom ≠ .error .cyclic := by
              simp [dom]
            have run := unifiesTo_unifyWithin dom_finished
            rw [dom] at run
            exact .descend left_walk right_walk differ (dom ▸ ih acyclic dom_finished)
              (ih (run.sound acyclic).1 finished)

theorem Acyclic.resolveEnds_iff (acyclic : subst.Acyclic) {resolved : Ty} :
    subst.ResolveEnds type resolved ↔ subst.resolve type = resolved := by
  constructor
  · exact (acyclic.resolveEnds_resolve type).unique
  · rintro rfl
    exact acyclic.resolveEnds_resolve type

theorem Acyclic.unifyEnds_iff (acyclic : subst.Acyclic) {left right : Ty}
    {outcome : Except UnificationFailure Subst} :
    UnifyEnds subst left right outcome ↔ subst.unify left right = outcome := by
  have ends := acyclic.unifyEnds_unifyWithin (acyclic.unify_ne_cyclic left right)
  constructor
  · exact ends.unique
  · rintro rfl
    exact ends

/-! ## No procedure ends on a cycle -/

theorem WalkEnds.unbound {name : String} (walk : subst.WalkEnds type (.var name)) :
    subst.get? name = none := by
  generalize last_eq : Ty.var name = last at walk
  induction walk with
  | arrow => cases last_eq
  | free unbound =>
      cases last_eq
      exact unbound
  | bound _ _ ih => exact ih last_eq

/-- A walk starts on a cycle only if it ends on one. -/
theorem WalkEnds.not_on_cycle {last : Ty} (walk : subst.WalkEnds type last)
    (last_clear : ∀ name, last.mentions name = true → ¬ Relation.TransGen subst.Leads name name)
    (name : String) (occurs : type.mentions name = true) :
    ¬ Relation.TransGen subst.Leads name name := by
  induction walk generalizing name with
  | arrow => exact last_clear name occurs
  | free => exact last_clear name occurs
  | @bound key type _ stored _ ih =>
      obtain rfl : key = name := by simpa [Ty.mentions] using occurs
      intro cycle
      obtain ⟨other, ⟨stored_type, stored', other_occurs⟩, back⟩ :=
        Relation.TransGen.head'_iff.mp cycle
      obtain rfl := Option.some.inj (stored.symm.trans stored')
      exact ih last_clear other other_occurs (.tail' back ⟨type, stored, other_occurs⟩)

theorem ResolveEnds.not_on_cycle {resolved : Ty} (ends : subst.ResolveEnds type resolved)
    (name : String) (occurs : type.mentions name = true) :
    ¬ Relation.TransGen subst.Leads name name := by
  induction ends generalizing name with
  | @var _ last walk =>
      refine walk.not_on_cycle (fun other other_occurs cycle => ?_) name occurs
      obtain rfl : last = other := by simpa [Ty.mentions] using other_occurs
      obtain ⟨_, ⟨_, stored, _⟩, _⟩ := Relation.TransGen.head'_iff.mp cycle
      simp [walk.unbound] at stored
  | arrow walk _ _ dom_ih cod_ih =>
      refine walk.not_on_cycle (fun other other_occurs => ?_) name occurs
      rcases Bool.or_eq_true_iff.mp other_occurs with in_dom | in_cod
      · exact dom_ih other in_dom
      · exact cod_ih other in_cod

/-- Resolving ends for every type exactly if there is no cycle. -/
theorem acyclic_iff_resolveEnds :
    subst.Acyclic ↔ ∀ type, ∃ resolved, subst.ResolveEnds type resolved := by
  constructor
  · exact fun acyclic type => ⟨_, acyclic.resolveEnds_resolve type⟩
  · intro ends name
    obtain ⟨resolved, resolve⟩ := ends (.var name)
    exact resolve.not_on_cycle name (by simp [Ty.mentions])

end

/-! ## What a run adds -/

/-- What the second substitution adds to the first one is made of the given variables. -/
structure AddsWithin (names : Set String) (before after : Subst) : Prop where
  /-- No other unbound variables have been bound. -/
  keys : ∀ name type, after.get? name = some type → before.get? name = none → name ∈ names
  /-- No other variables have come up in what a type resolves to. -/
  resolved : ∀ type name, (after.resolve type).mentions name = true →
    (before.resolve type).mentions name = true ∨ name ∈ names

section

variable {names : Set String} {subst after : Subst} {left right type : Ty} {name : String}

theorem AddsWithin.refl (names : Set String) (subst : Subst) : AddsWithin names subst subst where
  keys _ _ stored free := by simp [free] at stored
  resolved _ _ occurs := .inl occurs

theorem AddsWithin.trans {before middle : Subst} (early : AddsWithin names before middle)
    (late : AddsWithin names middle after) : AddsWithin names before after where
  keys name type stored free := by
    cases between : middle.get? name with
    | none => exact late.keys name type stored between
    | some type => exact early.keys name type between free
  resolved type name occurs := (late.resolved type name occurs).elim (early.resolved type name) .inr

theorem addsWithin_bindVar (acyclic : subst.Acyclic) (free : subst.get? name = none)
    (listed : name ∈ names)
    (type_within : ∀ other, (subst.resolve type).mentions other = true → other ∈ names)
    (ok : subst.bindVar name type = .ok after) : AddsWithin names subst after := by
  have after_acyclic := (bindVar_sound acyclic free ok).1
  obtain ⟨rfl, -⟩ := bindVar_ok ok
  refine ⟨fun other value stored unbound => ?_, fun goal other => ?_⟩
  · rcases get?_insert_eq_some stored with ⟨rfl, -⟩ | ⟨-, stored⟩
    · exact listed
    · cases unbound.symm.trans stored
  · induction goal using after_acyclic.induction with
    | free first unbound =>
        rw [resolve_free unbound, resolve_free ((extends_insert free).get?_eq_none unbound)]
        exact .inl
    | bound first value stored ih =>
        rw [after_acyclic.resolve_bound stored]
        rcases get?_insert_eq_some stored with ⟨-, rfl⟩ | ⟨-, stored⟩
        · exact fun occurs => .inr ((ih occurs).elim (type_within other) id)
        · rwa [acyclic.resolve_bound stored]
    | arrow dom cod dom_ih cod_ih =>
        simp only [resolve_arrow, Ty.mentions, Bool.or_eq_true]
        rintro (occurs | occurs)
        · exact (dom_ih occurs).imp_left .inl
        · exact (cod_ih occurs).imp_left .inr

/-- A run adds nothing but variables that the two sides resolve to. -/
theorem UnifiesTo.addsWithin (run : UnifiesTo subst left right (.ok after))
    (acyclic : subst.Acyclic)
    (left_within : ∀ name, (subst.resolve left).mentions name = true → name ∈ names)
    (right_within : ∀ name, (subst.resolve right).mentions name = true → name ∈ names) :
    AddsWithin names subst after := by
  generalize outcome_eq : Except.ok after = outcome at run
  induction run generalizing after with
  | equal =>
      cases outcome_eq
      exact .refl names _
  | @bindLeft subst left right name left_end _ =>
      have listed := left_within name (by simp [acyclic.resolve_of_walk left_end, Ty.mentions])
      rw [← acyclic.resolve_walk] at right_within
      exact addsWithin_bindVar acyclic (acyclic.get?_walk left_end) listed right_within
        outcome_eq.symm
  | @bindRight subst left right _ _ name _ right_end =>
      have listed := right_within name (by simp [acyclic.resolve_of_walk right_end, Ty.mentions])
      rw [← acyclic.resolve_walk] at left_within
      exact addsWithin_bindVar acyclic (acyclic.get?_walk right_end) listed left_within
        outcome_eq.symm
  | refuse => cases outcome_eq
  | descend left_end right_end dom _ dom_ih cod_ih =>
      rw [acyclic.resolve_of_walk_arrow left_end] at left_within
      rw [acyclic.resolve_of_walk_arrow right_end] at right_within
      simp only [Ty.mentions, Bool.or_eq_true, or_imp, forall_and] at left_within right_within
      have early := dom_ih acyclic left_within.1 right_within.1 rfl
      -- What the codomains resolve to may have changed, but only within the same variables.
      have late := cod_ih (dom.sound acyclic).1
        (fun name occurs => (early.resolved _ name occurs).elim (left_within.2 name) id)
        (fun name occurs => (early.resolved _ name occurs).elim (right_within.2 name) id) outcome_eq
      exact early.trans late

/-- A run between types that resolve to the same type adds nothing. -/
theorem UnifiesTo.unchanged {outcome : Except UnificationFailure Subst}
    (run : UnifiesTo subst left right outcome) (acyclic : subst.Acyclic)
    (same : subst.resolve left = subst.resolve right) : outcome = .ok subst := by
  induction run with
  | equal => rfl
  | bindLeft left_end differ =>
      rw [acyclic.resolve_of_walk left_end] at same
      exact absurd same.symm (acyclic.resolve_ne_var differ)
  | bindRight left_end right_end =>
      rw [acyclic.resolve_of_walk right_end] at same
      exact absurd same (acyclic.resolve_ne_var (by simp [left_end]))
  | refuse left_end right_end _ ih =>
      rw [acyclic.resolve_of_walk_arrow left_end, acyclic.resolve_of_walk_arrow right_end] at same
      cases ih acyclic (Ty.arrow.inj same).1
  | descend left_end right_end _ _ dom_ih cod_ih =>
      rw [acyclic.resolve_of_walk_arrow left_end, acyclic.resolve_of_walk_arrow right_end] at same
      obtain ⟨dom_same, cod_same⟩ := Ty.arrow.inj same
      cases dom_ih acyclic dom_same
      exact cod_ih acyclic cod_same

/-- What types resolve to depends on what variables are bound to. -/
theorem resolve_eq_of_get?_eq (acyclic : subst.Acyclic) (after_acyclic : after.Acyclic)
    (same : ∀ name, after.get? name = subst.get? name) (type : Ty) :
    after.resolve type = subst.resolve type := by
  induction type using acyclic.induction with
  | free name free => rw [resolve_free free, resolve_free ((same name).trans free)]
  | bound name type bound ih =>
      rw [acyclic.resolve_bound bound, after_acyclic.resolve_bound ((same name).trans bound), ih]
  | arrow dom cod dom_ih cod_ih => rw [resolve_arrow, resolve_arrow, dom_ih, cod_ih]

/-- Nothing has to be added exactly if both sides resolve to the same type. -/
theorem Acyclic.unify_eq_self_iff (acyclic : subst.Acyclic) :
    subst.unify left right = .ok subst ↔ subst.resolve left = subst.resolve right := by
  constructor
  · exact fun ok => (acyclic.unify_sound ok).2.2
  · exact (acyclic.unifiesTo_unify left right).unchanged acyclic

end

/--
Without cycles, resolving and unifying end without a bound, in one way only, with what the bounded
procedures give. Solving an equation gives a substitution without cycles that has all bindings of
the first one, binds besides only variables that the two sides resolved to, and makes both sides
resolve to the same type; it has no new binding exactly if they did so before, as they do when the
equation is solved again. Otherwise a variable would have to contain itself. No bound variable is
left in a resolved type, which resolves to itself.
-/
theorem unification_ends_without_cycles (subst : Subst) (acyclic : subst.Acyclic) :
    (∀ left right,
      (∀ outcome, UnifyEnds subst left right outcome ↔ subst.unify left right = outcome) ∧
      ((∃ after, subst.unify left right = .ok after) ∨
        ∃ name type, subst.unify left right = .error (.infinite name type)) ∧
      (subst.unify left right = .ok subst ↔ subst.resolve left = subst.resolve right) ∧
      ∀ after, subst.unify left right = .ok after →
        after.Acyclic ∧ subst.Extends after ∧
        (∀ name type, after.get? name = some type → subst.get? name = none →
          (subst.resolve left).mentions name = true ∨
            (subst.resolve right).mentions name = true) ∧
        after.resolve left = after.resolve right ∧
        ((∀ name, after.get? name = subst.get? name) ↔
          subst.resolve left = subst.resolve right) ∧
        after.unify left right = .ok after) ∧
    ∀ type,
      (∀ resolved, subst.ResolveEnds type resolved ↔ subst.resolve type = resolved) ∧
      (∀ name, (subst.resolve type).mentions name = true → subst.get? name = none) ∧
      subst.resolve (subst.resolve type) = subst.resolve type := by
  refine ⟨fun left right => ⟨fun _ => acyclic.unifyEnds_iff, ?_, acyclic.unify_eq_self_iff, ?_⟩,
    fun type => ⟨fun _ => acyclic.resolveEnds_iff,
      fun _ => acyclic.get?_of_mentions_resolve type, acyclic.resolve_resolve type⟩⟩
  · cases outcome : subst.unify left right with
    | ok after => exact .inl ⟨after, rfl⟩
    | error failure =>
        obtain ⟨_, _, _, name, type, rfl, -⟩ := acyclic.unify_failure outcome
        exact .inr ⟨name, type, rfl⟩
  · intro after ok
    obtain ⟨after_acyclic, extended, equal⟩ := acyclic.unify_sound ok
    have run := acyclic.unifiesTo_unify left right
    rw [ok] at run
    have added : AddsWithin {name | (subst.resolve left).mentions name = true ∨
        (subst.resolve right).mentions name = true} subst after :=
      run.addsWithin acyclic (fun _ => .inl) (fun _ => .inr)
    refine ⟨after_acyclic, extended, added.keys, equal, ⟨fun same => ?_, fun same name => ?_⟩,
      after_acyclic.unify_eq_self_iff.mpr equal⟩
    · simpa only [resolve_eq_of_get?_eq acyclic after_acyclic same] using equal
    · have unchanged := acyclic.unify_eq_self_iff.mpr same
      rw [Except.ok.inj (ok.symm.trans unchanged)]

/-- `f` is bound to `a -> d`, so solving `a -> f` with `b -> c -> c` binds `a` to `b` and goes on to
bind `b`; `f` and `a` have no solution. -/
theorem unification_ends_on_chain :
    let subst : Subst := ⟨[("f", .arrow (.var "a") (.var "d"))]⟩
    let left : Ty := .arrow (.var "a") (.var "f")
    let right : Ty := .arrow (.var "b") (.arrow (.var "c") (.var "c"))
    subst.Acyclic ∧
      (∃ after, UnifyEnds subst left right (.ok after) ∧ after ≠ subst ∧ after.Acyclic ∧
        subst.Extends after ∧ after.resolve left = after.resolve right ∧
          after.unify left right = .ok after) ∧
      UnifyEnds subst (.var "f") (.var "a")
        (.error (.infinite "a" (.arrow (.var "a") (.var "d")))) := by
  intro subst left right
  have acyclic : subst.Acyclic :=
    @Acyclic.insert empty "f" (.arrow (.var "a") (.var "d")) acyclic_empty rfl (by decide)
  obtain ⟨after, ok⟩ : ∃ after, subst.unify left right = .ok after := ⟨_, rfl⟩
  obtain ⟨ends, -, unchanged, found⟩ := (unification_ends_without_cycles subst acyclic).1 left right
  obtain ⟨after_acyclic, extended, -, equal, -, again⟩ := found after ok
  refine ⟨acyclic, ⟨after, (ends _).mpr ok, ?_, after_acyclic, extended, equal, again⟩, ?_⟩
  · rintro rfl
    exact absurd (unchanged.mp ok) (by decide)
  · exact (((unification_ends_without_cycles subst acyclic).1 _ _).1 _).mpr (by decide)

end Subst
end Combinatory
