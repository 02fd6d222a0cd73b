import Combinatory.Proofs.Ty.SearchDepth

/-!
# Most general solutions

Unification finds a most general solution of an equation on top of any substitution without cycles,
or there is none and it reports the pair of a variable and a larger type at which this shows.
-/

namespace Combinatory
namespace Subst

section

variable {subst after : Subst} {left right : Ty}

/-- What is found keeps all bindings, makes no cycle and makes both sides equal. -/
theorem Acyclic.unify_sound (acyclic : subst.Acyclic) (ok : subst.unify left right = .ok after) :
    after.Acyclic ∧ subst.Extends after ∧ after.resolve left = after.resolve right := by
  have run := acyclic.unifiesTo_unify left right
  rw [ok] at run
  exact run.sound acyclic

/-- An equation with a solution is solved, and its solutions solve what is found. -/
theorem Acyclic.unify_complete (acyclic : subst.Acyclic) {solution : String → Ty}
    (solved : subst.SolvedBy solution) (equal : left.bind solution = right.bind solution) :
    ∃ after, subst.unify left right = .ok after ∧ after.SolvedBy solution :=
  (acyclic.unifiesTo_unify left right).complete acyclic solved equal

/-- An equation is solved exactly if it has a solution. -/
theorem Acyclic.unify_ok_iff (acyclic : subst.Acyclic) :
    (∃ after, subst.unify left right = .ok after) ↔
      ∃ solution, subst.SolvedBy solution ∧ left.bind solution = right.bind solution := by
  constructor
  · rintro ⟨after, ok⟩
    obtain ⟨after_acyclic, extended, equal⟩ := acyclic.unify_sound ok
    exact ⟨_, extended.solvedBy after_acyclic.solvedBy_resolve, equal⟩
  · rintro ⟨solution, solved, equal⟩
    obtain ⟨after, ok, -⟩ := acyclic.unify_complete solved equal
    exact ⟨after, ok⟩

/-- A failure names a variable and a larger type around it, one for each side of the equation that
was met, as the bindings made so far resolve them. -/
theorem Acyclic.unify_failure (acyclic : subst.Acyclic) {failure : UnificationFailure}
    (failed : subst.unify left right = .error failure) :
    ∃ reached reachedLeft reachedRight name type,
      failure = .infinite name type ∧
        Meets subst left right reached reachedLeft reachedRight ∧
          reached.Opposes reachedLeft reachedRight name type ∧
            type.mentions name = true ∧ type ≠ .var name := by
  have run := acyclic.unifiesTo_unify left right
  rw [failed] at run
  exact run.failure acyclic

/-- What stands opposite a variable is resolved as far as it can be. -/
theorem Opposes.resolved {name : String} {type : Ty} (opposes : subst.Opposes left right name type)
    (acyclic : subst.Acyclic) {other : String} (occurs : type.mentions other = true) :
    subst.get? other = none := by
  rcases opposes with ⟨-, rfl⟩ | ⟨-, rfl⟩
  · exact acyclic.get?_of_mentions_resolve right occurs
  · exact acyclic.get?_of_mentions_resolve left occurs

end

/--
Unification fails exactly on equations without a solution, and what it finds is solved by every
solution. The type that a failure reports has no bound variable left, and it contains the reported
variable without being it.
-/
theorem unify_fails_iff_unsolvable (subst : Subst) (left right : Ty) (acyclic : subst.Acyclic) :
    ((∃ name type, subst.unify left right = .error (.infinite name type)) ↔
        ¬ ∃ solution, subst.SolvedBy solution ∧ left.bind solution = right.bind solution) ∧
      (∀ after, subst.unify left right = .ok after → ∀ solution, subst.SolvedBy solution →
        left.bind solution = right.bind solution → after.SolvedBy solution) ∧
      ∀ failure, subst.unify left right = .error failure →
        ∃ reached reachedLeft reachedRight name type,
          failure = .infinite name type ∧
            Meets subst left right reached reachedLeft reachedRight ∧
              reached.Opposes reachedLeft reachedRight name type ∧
                (∀ other, type.mentions other = true → reached.get? other = none) ∧
                  type ≠ .var name ∧ type.mentions name = true := by
  refine ⟨?_, ?_, ?_⟩
  · rw [← acyclic.unify_ok_iff]
    cases outcome : subst.unify left right with
    | ok after => simp
    | error failure =>
        obtain ⟨_, _, _, name, type, rfl, -⟩ := acyclic.unify_failure outcome
        simp
  · intro after ok solution solved equal
    obtain ⟨found, found_eq, found_solved⟩ := acyclic.unify_complete solved equal
    obtain rfl : after = found := by simpa [ok] using found_eq
    exact found_solved
  · intro failure failed
    obtain
      ⟨reached, reachedLeft, reachedRight, name, type, reason, meets, opposes, occurs, larger⟩ :=
      acyclic.unify_failure failed
    exact ⟨reached, reachedLeft, reachedRight, name, type, reason, meets, opposes,
      fun _ => opposes.resolved (meets.extends acyclic).1, larger, occurs⟩

/-- `a` is bound to `d -> d`, so `b -> d` and `a -> b` have no solution in common: `b` becomes
`d -> d`, which `d` would have to be equal to. -/
theorem unify_fails_through_binding :
    Acyclic ⟨[("a", .arrow (.var "d") (.var "d"))]⟩ ∧
      ¬ ∃ solution, SolvedBy ⟨[("a", .arrow (.var "d") (.var "d"))]⟩ solution ∧
        (Ty.arrow (.var "b") (.var "d")).bind solution =
          (Ty.arrow (.var "a") (.var "b")).bind solution := by
  have acyclic : Acyclic ⟨[("a", .arrow (.var "d") (.var "d"))]⟩ :=
    @Acyclic.insert empty "a" (.arrow (.var "d") (.var "d")) acyclic_empty rfl (by decide)
  exact ⟨acyclic, (unify_fails_iff_unsolvable _ _ _ acyclic).1.mp
    ⟨"d", .arrow (.var "d") (.var "d"), by decide⟩⟩

end Subst
end Combinatory
