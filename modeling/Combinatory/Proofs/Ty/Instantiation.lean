import Combinatory.Proofs.Ty.MostGeneral
import Combinatory.Proofs.Ty.Variant

/-!
# Instances by unification

Whether a type is an instance of another one can be found out by matching, in which variables of the
type stand for themselves, or by unifying the type with a freshly drawn copy of the other one, in
which they may be bound. The two agree: the type is an instance exactly if unification leaves it as
it is, up to the names of its variables.
-/

namespace Combinatory
namespace Ty

variable {supply : Supply} {specific general : Ty}

/-- The copy of a type in which all variables are drawn from the supply. -/
def copied (supply : Supply) (type : Ty) : Ty :=
  ((Supply.instantiate type).run supply).1

theorem copied_eq (supply : Supply) (type : Ty) :
    copied supply type = type.relabel fun place => drawnName (supply.next + place) := rfl

theorem exists_copied_bind_iff :
    (∃ replacement, (copied supply general).bind replacement = specific) ↔
      ∃ replacement, general.bind replacement = specific := by
  rw [copied_eq]
  exact exists_relabel_bind_iff (drawnName_add_injective supply.next)

/-- The copy becomes a given instance by a replacement that leaves written types alone. -/
theorem exists_copied_bind_written (supply : Supply) (general : Ty) (direct : String → Ty) :
    ∃ replacement, (copied supply general).bind replacement = general.bind direct ∧
      ∀ type : Ty, type.Written → type.bind replacement = type := by
  rw [copied_eq]
  obtain ⟨replacement, copy_eq, kept⟩ :=
    exists_bind_relabel (drawnName_add_injective supply.next) general direct
  refine ⟨replacement, copy_eq, fun type written => ?_⟩
  calc
    type.bind replacement = type.bind var := by
      apply bind_congr
      intro name occurs
      apply kept
      rintro ⟨place, rfl⟩
      exact written.drawnName_ne occurs _ rfl
    _ = type := bind_var type

/-- An instance is unified with the copy, and can be got back from what it then resolves to. -/
theorem unify_copied_of_isInstance (written : specific.Written)
    (fits : specific.isInstance general = true) :
    ∃ subst, Subst.empty.unify (copied supply general) specific = .ok subst ∧
      specific.isInstance (subst.resolve specific) = true := by
  obtain ⟨direct, rfl⟩ := isInstance_iff.mp fits
  obtain ⟨replacement, copy_eq, kept⟩ := exists_copied_bind_written supply general direct
  have specific_kept := kept _ written
  obtain ⟨subst, ok, solved⟩ := Subst.acyclic_empty.unify_complete
    (Subst.solvedBy_empty replacement) (copy_eq.trans specific_kept.symm)
  have acyclic := (Subst.acyclic_empty.unify_sound ok).1
  refine ⟨subst, ok, isInstance_iff.mpr ⟨replacement, ?_⟩⟩
  rw [solved.bind_resolve acyclic, specific_kept]

/-- What a type resolves to after it has been unified with the copy is an instance. -/
theorem isInstance_of_unify_copied {subst : Subst}
    (ok : Subst.empty.unify (copied supply general) specific = .ok subst) :
    (subst.resolve specific).isInstance general = true := by
  rw [isInstance_iff, ← exists_copied_bind_iff]
  exact ⟨_, (Subst.acyclic_empty.unify_sound ok).2.2⟩

/--
A written type is an instance of another type exactly if it can be unified with a copy of that type,
drawn from any supply, and then resolves to a type with its own canonical form.
-/
theorem instance_iff_unified_unchanged (supply : Supply) (specific general : Ty)
    (written : specific.Written) :
    specific.isInstance general = true ↔
      ∃ subst, Subst.empty.unify ((Supply.instantiate general).run supply).1 specific = .ok subst ∧
        (subst.resolve specific).canonicalize = specific.canonicalize := by
  constructor
  · intro fits
    obtain ⟨subst, ok, returned⟩ := unify_copied_of_isInstance written fits
    have resolved : (subst.resolve specific).isInstance specific = true :=
      isInstance_bind specific _
    exact ⟨subst, ok, canonicalize_eq_iff_isInstance.mpr ⟨resolved, returned⟩⟩
  · rintro ⟨subst, ok, same⟩
    have returned := (canonicalize_eq_iff_isInstance.mp same).2
    exact isInstance_trans returned (isInstance_of_unify_copied ok)

/-- `(a -> b) -> a -> b` is an instance of `b -> b`, from which a copy is drawn so that the two uses
of `b` are kept apart. `a -> b` is none: it can be unified with the copy, but its variables become
the same. -/
theorem instances_of_identity_type :
    let general := arrow (var "b") (var "b")
    let copy := ((Supply.instantiate general).run ⟨3⟩).1
    let function := arrow (var "a") (var "b")
    (arrow function function).Written ∧ function.Written ∧
      (∃ subst, Subst.empty.unify copy (arrow function function) = .ok subst ∧
        (subst.resolve (arrow function function)).canonicalize =
          (arrow function function).canonicalize) ∧
      (∃ subst, Subst.empty.unify copy function = .ok subst) ∧
      ¬ ∃ subst, Subst.empty.unify copy function = .ok subst ∧
        (subst.resolve function).canonicalize = function.canonicalize := by
  intro general copy function
  have function_written : function.Written :=
    written_arrow.mpr ⟨written_var.mpr (by decide), written_var.mpr (by decide)⟩
  have written : (arrow function function).Written :=
    written_arrow.mpr ⟨function_written, function_written⟩
  refine ⟨written, function_written, ?_, ?_, fun unchanged => ?_⟩
  · exact (instance_iff_unified_unchanged ⟨3⟩ _ general written).mp (by decide)
  · exact Subst.acyclic_empty.unify_ok_iff.mpr
      ⟨fun _ => var "a", Subst.solvedBy_empty _, rfl⟩
  · have fits := (instance_iff_unified_unchanged ⟨3⟩ _ general function_written).mpr unchanged
    exact absurd fits (by decide)

end Ty
end Combinatory
