import Combinatory.Proofs.Ty.Acyclic
import Combinatory.Ty.Unification

/-!
# Runs of unification

A solution of a substitution makes every binding an equation between equal types. This file follows
the solving of an equation step by step, without the bound on the number of levels: a run that ends
well keeps the substitution without cycles and makes both sides equal, it keeps every solution that
there is, and it ends in a failure only where there is none.
-/

namespace Combinatory

namespace Ty

/-- A type is at least as large as what stands in it for one of its variables. -/
theorem size_le_size_bind {name : String} {type : Ty} (solution : String → Ty)
    (occurs : type.mentions name = true) : (solution name).size ≤ (type.bind solution).size := by
  induction type with
  | var other =>
      obtain rfl : other = name := by simpa [mentions] using occurs
      exact le_rfl
  | arrow dom cod dom_ih cod_ih =>
      simp only [bind, size]
      rcases Bool.or_eq_true_iff.mp occurs with occurs | occurs
      · have := dom_ih occurs
        omega
      · have := cod_ih occurs
        omega

/-- Nothing can stand both for a variable and for a larger type that contains it. -/
theorem ne_bind_of_mentions {name : String} {type : Ty} (solution : String → Ty)
    (occurs : type.mentions name = true) (larger : type ≠ .var name) :
    solution name ≠ type.bind solution := by
  intro equal
  cases type with
  | var other =>
      obtain rfl : other = name := by simpa [mentions] using occurs
      exact larger rfl
  | arrow dom cod =>
      have sizes := congrArg Ty.size equal
      simp only [bind, size] at sizes
      rcases Bool.or_eq_true_iff.mp occurs with occurs | occurs
      · have := size_le_size_bind solution occurs
        omega
      · have := size_le_size_bind solution occurs
        omega

end Ty

namespace Subst

section Solutions

variable {subst : Subst} {name : String} {type : Ty} {solution : String → Ty}

/-! ## Solutions -/

/-- The assignment makes every binding an equation between equal types. -/
def SolvedBy (subst : Subst) (solution : String → Ty) : Prop :=
  ∀ name type, subst.get? name = some type → solution name = type.bind solution

theorem solvedBy_empty (solution : String → Ty) : empty.SolvedBy solution :=
  fun _ _ bound => by simp at bound

theorem SolvedBy.insert (solved : subst.SolvedBy solution)
    (equal : solution name = type.bind solution) : (subst.insert name type).SolvedBy solution := by
  intro other value bound
  rcases get?_insert_eq_some bound with ⟨rfl, rfl⟩ | ⟨-, bound⟩
  · exact equal
  · exact solved other value bound

theorem Extends.solvedBy {before after : Subst} (extended : before.Extends after)
    (solved : after.SolvedBy solution) : before.SolvedBy solution :=
  fun name type bound => solved name type (extended name type bound)

/-- A solution does not tell a type from what it resolves to. -/
theorem SolvedBy.bind_resolve (solved : subst.SolvedBy solution) (acyclic : subst.Acyclic)
    (type : Ty) : (subst.resolve type).bind solution = type.bind solution := by
  induction type using acyclic.induction with
  | free name free => rw [resolve_free free]
  | bound name type bound ih =>
      rw [acyclic.resolve_bound bound, ih, Ty.bind, solved name type bound]
  | arrow dom cod dom_ih cod_ih => simp [Ty.bind, dom_ih, cod_ih]

/-- A solution does not tell a type from the end of its walk. -/
theorem SolvedBy.bind_walk (solved : subst.SolvedBy solution) (acyclic : subst.Acyclic)
    (type : Ty) : (subst.walk type).bind solution = type.bind solution := by
  rw [← solved.bind_resolve acyclic, acyclic.resolve_walk, solved.bind_resolve acyclic]

/-- Resolving each variable is a solution. -/
theorem Acyclic.solvedBy_resolve (acyclic : subst.Acyclic) :
    subst.SolvedBy fun name => subst.resolve (.var name) :=
  fun _ _ bound => acyclic.resolve_bound bound

theorem Extends.resolve_walk {before after : Subst} (extended : before.Extends after)
    (before_acyclic : before.Acyclic) (after_acyclic : after.Acyclic) (type : Ty) :
    after.resolve (before.walk type) = after.resolve type :=
  (extended.solvedBy after_acyclic.solvedBy_resolve).bind_walk before_acyclic type

/-! ## Binding a variable -/

theorem bindVar_cases (subst : Subst) (name : String) (type : Ty) :
    (subst.bindVar name type = .ok (subst.insert name type) ∧
        (subst.resolve type).mentions name = false) ∨
      (subst.bindVar name type = .error (.infinite name (subst.resolve type)) ∧
        (subst.resolve type).mentions name = true) := by
  cases occurs : (subst.resolve type).mentions name <;> simp [bindVar, occurs]

/-- A variable is bound only where it does not occur in what the type resolves to. -/
theorem bindVar_ok {after : Subst} (ok : subst.bindVar name type = .ok after) :
    subst.insert name type = after ∧ (subst.resolve type).mentions name = false := by
  rcases bindVar_cases subst name type with ⟨bound, absent⟩ | ⟨failed, -⟩
  · exact ⟨Except.ok.inj (bound.symm.trans ok), absent⟩
  · cases failed.symm.trans ok

theorem bindVar_ne_cyclic (subst : Subst) (name : String) (type : Ty) :
    subst.bindVar name type ≠ .error .cyclic := by
  rcases bindVar_cases subst name type with ⟨bound, -⟩ | ⟨failed, -⟩
  · simp [bound]
  · simp [failed]

/-- A variable is not left unbound when it could be bound. -/
theorem bindVar_complete (acyclic : subst.Acyclic) (solved : subst.SolvedBy solution)
    (larger : subst.resolve type ≠ .var name) (equal : solution name = type.bind solution) :
    ∃ after, subst.bindVar name type = .ok after ∧ after.SolvedBy solution := by
  rcases bindVar_cases subst name type with ⟨bound, -⟩ | ⟨-, occurs⟩
  · exact ⟨_, bound, solved.insert equal⟩
  · apply absurd equal
    rw [← solved.bind_resolve acyclic]
    exact Ty.ne_bind_of_mentions solution occurs larger

/-- Binding an unbound variable makes it stand for the type. -/
theorem bindVar_sound {after : Subst} (acyclic : subst.Acyclic) (free : subst.get? name = none)
    (ok : subst.bindVar name type = .ok after) :
    after.Acyclic ∧ subst.Extends after ∧ after.resolve (.var name) = after.resolve type := by
  obtain ⟨rfl, absent⟩ := bindVar_ok ok
  have after_acyclic := acyclic.insert free absent
  exact ⟨after_acyclic, extends_insert free, after_acyclic.resolve_bound (by simp [get?_insert])⟩

/-- Binding an unbound variable fails on a type in which it occurs. -/
theorem bindVar_failure {failure : UnificationFailure} (acyclic : subst.Acyclic)
    (failed : subst.bindVar name (subst.walk type) = .error failure) :
    failure = .infinite name (subst.resolve type) ∧ (subst.resolve type).mentions name = true := by
  rw [← acyclic.resolve_walk type]
  rcases bindVar_cases subst name (subst.walk type) with ⟨bound, -⟩ | ⟨refused, occurs⟩
  · cases bound.symm.trans failed
  · have same_failure := Except.error.inj (refused.symm.trans failed)
    exact ⟨same_failure.symm, occurs⟩

/-- The end of a walk is unbound if it is a variable. -/
theorem Acyclic.get?_walk (acyclic : subst.Acyclic) (type_end : subst.walk type = .var name) :
    subst.get? name = none := by
  rcases acyclic.walk_end type with ⟨dom, cod, type_end'⟩ | ⟨other, type_end', free⟩
  · simp [type_end] at type_end'
  · rw [type_end] at type_end'
    cases type_end'
    exact free

theorem Acyclic.resolve_of_walk (acyclic : subst.Acyclic) (type_end : subst.walk type = .var name) :
    subst.resolve type = .var name := by
  rw [← acyclic.resolve_walk, type_end, resolve_free (acyclic.get?_walk type_end)]

theorem Acyclic.resolve_of_walk_arrow (acyclic : subst.Acyclic) {dom cod : Ty}
    (type_end : subst.walk type = .arrow dom cod) :
    subst.resolve type = .arrow (subst.resolve dom) (subst.resolve cod) := by
  rw [← acyclic.resolve_walk, type_end, resolve_arrow]

/-- A type resolves to a variable only if its walk ends there. -/
theorem Acyclic.resolve_ne_var (acyclic : subst.Acyclic) (differ : subst.walk type ≠ .var name) :
    subst.resolve type ≠ .var name := by
  rw [← acyclic.resolve_walk]
  rcases acyclic.walk_end type with ⟨dom, cod, type_end⟩ | ⟨other, type_end, free⟩
  · simp [type_end]
  · rwa [type_end, resolve_free free, ← type_end]

end Solutions

/-! ## Runs -/

/-- How the solving of an equation from a substitution goes on to its outcome. -/
inductive UnifiesTo : Subst → Ty → Ty → Except UnificationFailure Subst → Prop
  /-- Both sides are the same already. -/
  | equal {subst : Subst} {left right : Ty} (same : subst.walk left = subst.walk right) :
      UnifiesTo subst left right (.ok subst)
  /-- The left side is an unbound variable. -/
  | bindLeft {subst : Subst} {left right : Ty} {name : String}
      (left_end : subst.walk left = .var name) (differ : subst.walk right ≠ .var name) :
      UnifiesTo subst left right (subst.bindVar name (subst.walk right))
  /-- Only the right side is an unbound variable. -/
  | bindRight {subst : Subst} {left right dom cod : Ty} {name : String}
      (left_end : subst.walk left = .arrow dom cod) (right_end : subst.walk right = .var name) :
      UnifiesTo subst left right (subst.bindVar name (subst.walk left))
  /-- The domains of two function types cannot be made equal. -/
  | refuse {subst : Subst} {left right leftDom leftCod rightDom rightCod : Ty}
      {failure : UnificationFailure} (left_end : subst.walk left = .arrow leftDom leftCod)
      (right_end : subst.walk right = .arrow rightDom rightCod)
      (dom : UnifiesTo subst leftDom rightDom (.error failure)) :
      UnifiesTo subst left right (.error failure)
  /-- After the domains of two function types the codomains are solved. -/
  | descend {subst extended : Subst} {left right leftDom leftCod rightDom rightCod : Ty}
      {outcome : Except UnificationFailure Subst}
      (left_end : subst.walk left = .arrow leftDom leftCod)
      (right_end : subst.walk right = .arrow rightDom rightCod)
      (dom : UnifiesTo subst leftDom rightDom (.ok extended))
      (cod : UnifiesTo extended leftCod rightCod outcome) :
      UnifiesTo subst left right outcome

/-- How the search for a solution goes on at one level. -/
theorem unifyWithin_cases (levels : Nat) (subst : Subst) (left right : Ty) :
    (subst.walk left = subst.walk right ∧ unifyWithin (levels + 1) subst left right = .ok subst) ∨
      (∃ name, subst.walk left = .var name ∧ subst.walk right ≠ .var name ∧
        unifyWithin (levels + 1) subst left right = subst.bindVar name (subst.walk right)) ∨
      (∃ dom cod name, subst.walk left = .arrow dom cod ∧ subst.walk right = .var name ∧
        unifyWithin (levels + 1) subst left right = subst.bindVar name (.arrow dom cod)) ∨
      ∃ leftDom leftCod rightDom rightCod, subst.walk left = .arrow leftDom leftCod ∧
        subst.walk right = .arrow rightDom rightCod ∧
          Ty.arrow leftDom leftCod ≠ .arrow rightDom rightCod ∧
            unifyWithin (levels + 1) subst left right =
              match unifyWithin levels subst leftDom rightDom with
              | .ok extended => unifyWithin levels extended leftCod rightCod
              | .error failure => .error failure := by
  rw [unifyWithin]
  by_cases same : subst.walk left = subst.walk right
  · exact .inl ⟨same, if_pos same⟩
  simp only [if_neg same]
  cases left_end : subst.walk left with
  | var name =>
      refine .inr (.inl ⟨name, rfl, left_end ▸ Ne.symm same, ?_⟩)
      cases subst.walk right <;> rfl
  | arrow leftDom leftCod =>
      rw [left_end] at same
      cases right_end : subst.walk right with
      | var name => exact .inr (.inr (.inl ⟨leftDom, leftCod, name, rfl, rfl, rfl⟩))
      | arrow rightDom rightCod =>
          exact .inr (.inr (.inr
            ⟨leftDom, leftCod, rightDom, rightCod, rfl, rfl, right_end ▸ same, rfl⟩))

/-- An outcome that is not owed to the bound on the levels is reached by a run. -/
theorem unifiesTo_unifyWithin {levels : Nat} {subst : Subst} {left right : Ty}
    (finished : unifyWithin levels subst left right ≠ .error .cyclic) :
    UnifiesTo subst left right (unifyWithin levels subst left right) := by
  induction levels generalizing subst left right with
  | zero => exact absurd rfl finished
  | succ levels ih =>
      rcases unifyWithin_cases levels subst left right with
        ⟨same, outcome⟩ | ⟨name, left_end, differ, outcome⟩ |
        ⟨dom, cod, name, left_end, right_end, outcome⟩ |
        ⟨leftDom, leftCod, rightDom, rightCod, left_end, right_end, -, outcome⟩
      all_goals rw [outcome] at finished ⊢
      · exact .equal same
      · exact .bindLeft left_end differ
      · exact left_end ▸ .bindRight left_end right_end
      · cases dom : unifyWithin levels subst leftDom rightDom with
        | error failure =>
            simp only [dom] at finished ⊢
            exact .refuse left_end right_end (dom ▸ ih (dom ▸ finished))
        | ok extended =>
            simp only [dom] at finished ⊢
            exact .descend left_end right_end (dom ▸ ih (by simp [dom])) (ih finished)

/-- A run that ends well extends the substitution, makes no cycle and makes both sides equal. -/
theorem UnifiesTo.sound {subst after : Subst} {left right : Ty}
    (run : UnifiesTo subst left right (.ok after)) (acyclic : subst.Acyclic) :
    after.Acyclic ∧ subst.Extends after ∧ after.resolve left = after.resolve right := by
  generalize outcome_eq : Except.ok after = outcome at run
  induction run generalizing after with
  | equal same =>
      cases outcome_eq
      exact ⟨acyclic, .refl _, by rw [← acyclic.resolve_walk, same, acyclic.resolve_walk]⟩
  | @bindLeft _ left right name left_end _ =>
      obtain ⟨after_acyclic, extended, equal⟩ :=
        bindVar_sound acyclic (acyclic.get?_walk left_end) outcome_eq.symm
      refine ⟨after_acyclic, extended, ?_⟩
      rw [← extended.resolve_walk acyclic after_acyclic left, left_end, equal,
        extended.resolve_walk acyclic after_acyclic]
  | @bindRight _ left right _ _ name _ right_end =>
      obtain ⟨after_acyclic, extended, equal⟩ :=
        bindVar_sound acyclic (acyclic.get?_walk right_end) outcome_eq.symm
      refine ⟨after_acyclic, extended, ?_⟩
      rw [← extended.resolve_walk acyclic after_acyclic right, right_end, equal,
        extended.resolve_walk acyclic after_acyclic]
  | refuse => cases outcome_eq
  | @descend subst middle left right leftDom leftCod rightDom rightCod _ left_end right_end _ _
      dom_ih cod_ih =>
      obtain ⟨middle_acyclic, first, dom_equal⟩ := dom_ih acyclic rfl
      obtain ⟨after_acyclic, second, cod_equal⟩ := cod_ih middle_acyclic outcome_eq
      have extended := first.trans second
      refine ⟨after_acyclic, extended, ?_⟩
      rw [← extended.resolve_walk acyclic after_acyclic left, left_end,
        ← extended.resolve_walk acyclic after_acyclic right, right_end, resolve_arrow,
        resolve_arrow, cod_equal, ← second.resolve_resolve middle_acyclic after_acyclic leftDom,
        dom_equal, second.resolve_resolve middle_acyclic after_acyclic]

/-- A run loses no solution: it ends well, and all solutions of the equation are still there. -/
theorem UnifiesTo.complete {subst : Subst} {left right : Ty}
    {outcome : Except UnificationFailure Subst} {solution : String → Ty}
    (run : UnifiesTo subst left right outcome) (acyclic : subst.Acyclic)
    (solved : subst.SolvedBy solution) (equal : left.bind solution = right.bind solution) :
    ∃ after, outcome = .ok after ∧ after.SolvedBy solution := by
  have ends_equal {subst : Subst} {left right : Ty} (acyclic : subst.Acyclic)
      (solved : subst.SolvedBy solution) (equal : left.bind solution = right.bind solution) :
      (subst.walk left).bind solution = (subst.walk right).bind solution := by
    rw [solved.bind_walk acyclic, solved.bind_walk acyclic, equal]
  induction run with
  | equal => exact ⟨_, rfl, solved⟩
  | @bindLeft _ left right name left_end differ =>
      have ends := ends_equal acyclic solved equal
      have larger := acyclic.resolve_ne_var differ
      rw [← acyclic.resolve_walk] at larger
      rw [left_end] at ends
      exact bindVar_complete acyclic solved larger ends
  | @bindRight _ left right dom cod name left_end right_end =>
      have ends := ends_equal acyclic solved equal
      rw [right_end] at ends
      exact bindVar_complete acyclic solved (by simp [left_end]) ends.symm
  | refuse left_end right_end _ dom_ih =>
      have ends := ends_equal acyclic solved equal
      rw [left_end, right_end, Ty.bind, Ty.bind] at ends
      obtain ⟨after, impossible, -⟩ := dom_ih acyclic solved (Ty.arrow.inj ends).1
      cases impossible
  | descend left_end right_end dom _ dom_ih cod_ih =>
      have ends := ends_equal acyclic solved equal
      rw [left_end, right_end, Ty.bind, Ty.bind] at ends
      obtain ⟨dom_equal, cod_equal⟩ := Ty.arrow.inj ends
      obtain ⟨middle, middle_eq, middle_solved⟩ := dom_ih acyclic solved dom_equal
      cases middle_eq
      exact cod_ih (dom.sound acyclic).1 middle_solved cod_equal

/-! ## The equation at which a run fails -/

/-- Solving the first equation comes down to solving the second one. -/
inductive Meets : Subst → Ty → Ty → Subst → Ty → Ty → Prop
  /-- The equation itself is met first. -/
  | here (subst : Subst) (left right : Ty) : Meets subst left right subst left right
  /-- The domains of two function types are met from the same substitution. -/
  | dom {subst reached : Subst} {left right leftDom leftCod rightDom rightCod : Ty}
      {reachedLeft reachedRight : Ty} (left_end : subst.walk left = .arrow leftDom leftCod)
      (right_end : subst.walk right = .arrow rightDom rightCod)
      (inner : Meets subst leftDom rightDom reached reachedLeft reachedRight) :
      Meets subst left right reached reachedLeft reachedRight
  /-- Their codomains are met after the domains have been solved. -/
  | cod {subst extended reached : Subst} {left right leftDom leftCod rightDom rightCod : Ty}
      {reachedLeft reachedRight : Ty} (left_end : subst.walk left = .arrow leftDom leftCod)
      (right_end : subst.walk right = .arrow rightDom rightCod)
      (dom_solved : UnifiesTo subst leftDom rightDom (.ok extended))
      (inner : Meets extended leftCod rightCod reached reachedLeft reachedRight) :
      Meets subst left right reached reachedLeft reachedRight

/-- Along a run bindings are only added, and no cycle comes up. -/
theorem Meets.extends {subst reached : Subst} {left right reachedLeft reachedRight : Ty}
    (meets : Meets subst left right reached reachedLeft reachedRight) (acyclic : subst.Acyclic) :
    reached.Acyclic ∧ subst.Extends reached := by
  induction meets with
  | here subst left right => exact ⟨acyclic, .refl subst⟩
  | dom _ _ _ ih => exact ih acyclic
  | cod _ _ dom_solved _ ih =>
      obtain ⟨middle_acyclic, first, -⟩ := dom_solved.sound acyclic
      obtain ⟨reached_acyclic, second⟩ := ih middle_acyclic
      exact ⟨reached_acyclic, first.trans second⟩

/-- The type stands for one side of the equation and the variable for the other one. -/
def Opposes (subst : Subst) (left right : Ty) (name : String) (type : Ty) : Prop :=
  (subst.resolve left = .var name ∧ subst.resolve right = type) ∨
    (subst.resolve right = .var name ∧ subst.resolve left = type)

/-- A run fails where an unbound variable would have to be equal to a larger type, in which no
bound variable is left and in which it occurs. -/
theorem UnifiesTo.failure {subst : Subst} {left right : Ty} {failure : UnificationFailure}
    (run : UnifiesTo subst left right (.error failure)) (acyclic : subst.Acyclic) :
    ∃ reached reachedLeft reachedRight name type,
      failure = .infinite name type ∧
        Meets subst left right reached reachedLeft reachedRight ∧
          reached.Opposes reachedLeft reachedRight name type ∧
            type.mentions name = true ∧ type ≠ .var name := by
  generalize outcome_eq : Except.error failure = outcome at run
  induction run with
  | equal => cases outcome_eq
  | @bindLeft subst left right name left_end differ =>
      obtain ⟨reason, occurs⟩ := bindVar_failure acyclic outcome_eq.symm
      exact ⟨subst, left, right, name, _, reason, .here subst left right,
        .inl ⟨acyclic.resolve_of_walk left_end, rfl⟩, occurs, acyclic.resolve_ne_var differ⟩
  | @bindRight subst left right dom cod name left_end right_end =>
      have differ : subst.walk left ≠ .var name := by simp [left_end]
      obtain ⟨reason, occurs⟩ := bindVar_failure acyclic outcome_eq.symm
      exact ⟨subst, left, right, name, _, reason, .here subst left right,
        .inr ⟨acyclic.resolve_of_walk right_end, rfl⟩, occurs, acyclic.resolve_ne_var differ⟩
  | refuse left_end right_end _ ih =>
      cases outcome_eq
      obtain ⟨reached, reachedLeft, reachedRight, name, type, reason, meets, rest⟩ := ih acyclic rfl
      exact ⟨reached, reachedLeft, reachedRight, name, type, reason,
        .dom left_end right_end meets, rest⟩
  | descend left_end right_end dom _ _ ih =>
      obtain ⟨reached, reachedLeft, reachedRight, name, type, reason, meets, rest⟩ :=
        ih (dom.sound acyclic).1 outcome_eq
      exact ⟨reached, reachedLeft, reachedRight, name, type, reason,
        .cod left_end right_end dom meets, rest⟩

end Subst
end Combinatory
