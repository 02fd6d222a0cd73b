import Combinatory.Proofs.Ty.Acyclic
import Combinatory.Ty.Matching

/-!
# Instances

Matching extends a substitution by the bindings that a pattern needs to become a given type, and by
no others: what it finds is the least extension that renames the pattern to the type. So one type is
an instance of another exactly if replacing variables in the other one gives it.
-/

namespace Combinatory
namespace Subst

variable {subst after : Subst} {pattern type : Ty}

/-- All variables of the type are bound. -/
def Covers (subst : Subst) (type : Ty) : Prop :=
  ∀ name, type.mentions name = true → ∃ bound, subst.get? name = some bound

/-- The assignment has the bindings of the substitution. -/
def HeldBy (subst : Subst) (assignment : String → Ty) : Prop :=
  ∀ name type, subst.get? name = some type → assignment name = type

/-- The second substitution extends the first one, binds every variable of the pattern and renames
the pattern to the type. -/
structure Matches (before : Subst) (pattern type : Ty) (after : Subst) : Prop where
  /-- No binding is lost or changed. -/
  extends_before : before.Extends after
  /-- Every variable of the pattern is bound. -/
  covers : after.Covers pattern
  /-- Replacing the variables of the pattern once gives the type. -/
  renames : after.rename pattern = type

theorem Extends.covers {before after : Subst} (extended : before.Extends after)
    (covers : before.Covers type) : after.Covers type := by
  intro name occurs
  obtain ⟨bound, before_bound⟩ := covers name occurs
  exact ⟨bound, extended name bound before_bound⟩

/-- Renaming a type depends on the bindings of its own variables only. -/
theorem Extends.rename_eq {before after : Subst} (extended : before.Extends after)
    (covers : before.Covers type) : after.rename type = before.rename type := by
  apply Ty.bind_congr
  intro name occurs
  obtain ⟨bound, before_bound⟩ := covers name occurs
  rw [before_bound, extended name bound before_bound]

theorem Extends.matches_var {before after : Subst} (extended : before.Extends after)
    {name : String} (bound : after.get? name = some type) :
    before.Matches (.var name) type after where
  extends_before := extended
  covers other occurs := by
    obtain rfl : name = other := by simpa [Ty.mentions] using occurs
    exact ⟨type, bound⟩
  renames := by simp [rename, Ty.bind, bound]

/-- A variable is matched by binding it, or by the binding that it has. -/
theorem matchType?_var {name : String}
    (matched : subst.matchType? (.var name) type = some after) :
    (subst.get? name = none ∧ subst.insert name type = after) ∨
      (subst.get? name = some type ∧ subst = after) := by
  rw [matchType?] at matched
  split at matched
  · next free => exact .inl ⟨free, Option.some.inj matched⟩
  · next bound stored =>
      split at matched
      · next same => exact .inr ⟨same ▸ stored, Option.some.inj matched⟩
      · cases matched

/-- A function type is matched with a function type, domains first. -/
theorem matchType?_arrow {patternDom patternCod : Ty}
    (matched : subst.matchType? (.arrow patternDom patternCod) type = some after) :
    ∃ dom cod middle, type = .arrow dom cod ∧ subst.matchType? patternDom dom = some middle ∧
      middle.matchType? patternCod cod = some after := by
  cases type with
  | var name => simp [matchType?] at matched
  | arrow dom cod =>
      rw [matchType?] at matched
      split at matched
      · next middle dom_matched => exact ⟨dom, cod, middle, rfl, dom_matched, matched⟩
      · cases matched

/-- What is found extends the substitution, covers the pattern and renames it to the type. -/
theorem matchType?_sound (matched : subst.matchType? pattern type = some after) :
    subst.Matches pattern type after := by
  induction pattern generalizing subst after type with
  | var name =>
      rcases matchType?_var matched with ⟨free, rfl⟩ | ⟨stored, rfl⟩
      · exact (extends_insert free).matches_var (by simp [get?_insert])
      · exact (Extends.refl subst).matches_var stored
  | arrow patternDom patternCod dom_ih cod_ih =>
      obtain ⟨dom, cod, middle, rfl, dom_matched, cod_matched⟩ := matchType?_arrow matched
      obtain ⟨first, dom_covers, dom_eq⟩ := dom_ih dom_matched
      obtain ⟨second, cod_covers, cod_eq⟩ := cod_ih cod_matched
      refine ⟨first.trans second, fun name occurs => ?_, ?_⟩
      · rcases Bool.or_eq_true_iff.mp occurs with occurs | occurs
        · exact second.covers dom_covers name occurs
        · exact cod_covers name occurs
      · have dom_kept := second.rename_eq dom_covers
        simp only [rename, Ty.bind] at dom_kept dom_eq cod_eq ⊢
        rw [dom_kept, dom_eq, cod_eq]

/-- A match leaves alone what is no variable of the pattern. -/
theorem get?_of_matchType? (matched : subst.matchType? pattern type = some after) {name : String}
    (absent : pattern.mentions name = false) : after.get? name = subst.get? name := by
  induction pattern generalizing subst after type with
  | var other =>
      have name_ne : name ≠ other := by
        rintro rfl
        simp [Ty.mentions] at absent
      rcases matchType?_var matched with ⟨-, rfl⟩ | ⟨-, rfl⟩
      · rw [get?_insert, if_neg name_ne]
      · rfl
  | arrow patternDom patternCod dom_ih cod_ih =>
      obtain ⟨dom, cod, middle, -, dom_matched, cod_matched⟩ := matchType?_arrow matched
      simp only [Ty.mentions, Bool.or_eq_false_iff] at absent
      rw [cod_ih cod_matched absent.2, dom_ih dom_matched absent.1]

/-- Whatever turns the pattern into the type holds the bindings that a match adds. -/
theorem matchType?_complete {assignment : String → Ty} (held : subst.HeldBy assignment)
    (equal : pattern.bind assignment = type) :
    ∃ after, subst.matchType? pattern type = some after ∧ after.HeldBy assignment := by
  induction pattern generalizing subst type with
  | var name =>
      cases stored : subst.get? name with
      | none =>
          refine ⟨subst.insert name type, by simp [matchType?, stored], fun other value bound => ?_⟩
          rcases get?_insert_eq_some bound with ⟨rfl, rfl⟩ | ⟨-, bound⟩
          · exact equal
          · exact held other value bound
      | some bound =>
          have same : bound = type := (held name bound stored).symm.trans equal
          exact ⟨subst, by simp [matchType?, stored, same], held⟩
  | arrow patternDom patternCod dom_ih cod_ih =>
      subst equal
      obtain ⟨middle, dom_matched, middle_held⟩ := dom_ih held rfl
      obtain ⟨after, cod_matched, after_held⟩ := cod_ih middle_held rfl
      exact ⟨after, by simp [Ty.bind, matchType?, dom_matched, cod_matched], after_held⟩

/-! ## Extensions that match -/

/-- Where an extension matches, what is found is a part of it. -/
theorem Matches.matchType?_extends {other : Subst} (fits : subst.Matches pattern type other) :
    ∃ after, subst.matchType? pattern type = some after ∧ after.Extends other := by
  have held : subst.HeldBy fun name => (other.get? name).getD (.var name) := by
    intro name bound stored
    simp [fits.extends_before name bound stored]
  obtain ⟨after, matched, after_held⟩ := matchType?_complete held fits.renames
  refine ⟨after, matched, fun name bound stored => ?_⟩
  cases occurs : pattern.mentions name with
  | false =>
      rw [get?_of_matchType? matched occurs] at stored
      exact fits.extends_before name bound stored
  | true =>
      obtain ⟨value, other_stored⟩ := fits.covers name occurs
      have value_eq := after_held name bound stored
      simp only [other_stored, Option.getD_some] at value_eq
      rw [other_stored, value_eq]

/-- The variables that a match binds are those of the pattern that were not bound. -/
theorem bound_of_matchType?_iff (matched : subst.matchType? pattern type = some after)
    {name : String} (free : subst.get? name = none) :
    (∃ bound, after.get? name = some bound) ↔ pattern.mentions name = true := by
  constructor
  · rintro ⟨bound, stored⟩
    by_contra absent
    rw [get?_of_matchType? matched (by simpa using absent), free] at stored
    simp at stored
  · exact (matchType?_sound matched).covers name

/--
Matching fails exactly where no extension of the substitution matches. What it finds matches, binds
the unbound variables of the pattern and no others, and is a part of every extension that matches.
-/
theorem match_finds_least_extension (subst : Subst) (pattern type : Ty) :
    (subst.matchType? pattern type = none ↔ ¬ ∃ other, subst.Matches pattern type other) ∧
      ∀ after, subst.matchType? pattern type = some after →
        subst.Matches pattern type after ∧
          (∀ name, subst.get? name = none →
            ((∃ bound, after.get? name = some bound) ↔ pattern.mentions name = true)) ∧
          ∀ other, subst.Matches pattern type other → after.Extends other := by
  constructor
  · constructor
    · rintro unmatched ⟨other, fits⟩
      obtain ⟨after, matched, -⟩ := fits.matchType?_extends
      simp [unmatched] at matched
    · intro misfit
      rw [Option.eq_none_iff_forall_ne_some]
      intro after matched
      exact misfit ⟨after, matchType?_sound matched⟩
  · intro after matched
    refine ⟨matchType?_sound matched, fun name => bound_of_matchType?_iff matched, ?_⟩
    intro other fits
    obtain ⟨found, found_eq, extended⟩ := fits.matchType?_extends
    obtain rfl : after = found := Option.some.inj (matched.symm.trans found_eq)
    exact extended

/-- A variable is bound to a type around it, and the binding is not followed. -/
example : empty.matchType? (.arrow (.var "a") (.var "a"))
      (.arrow (.arrow (.var "a") (.var "b")) (.arrow (.var "a") (.var "b"))) =
    some ⟨[("a", .arrow (.var "a") (.var "b"))]⟩ := by decide

end Subst

namespace Ty

/-- The instances of a type are what it becomes when its variables are replaced. -/
theorem isInstance_iff {specific general : Ty} :
    specific.isInstance general = true ↔ ∃ replacement, general.bind replacement = specific := by
  rw [isInstance, Option.isSome_iff_exists]
  constructor
  · rintro ⟨after, matched⟩
    exact ⟨_, (Subst.matchType?_sound matched).renames⟩
  · rintro ⟨replacement, equal⟩
    have held : Subst.empty.HeldBy replacement := fun _ _ bound => by simp at bound
    obtain ⟨after, matched, -⟩ := Subst.matchType?_complete held equal
    exact ⟨after, matched⟩

end Ty
end Combinatory
