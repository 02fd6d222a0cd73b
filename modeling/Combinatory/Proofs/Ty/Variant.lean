import Combinatory.Proofs.Ty.Scheme

/-!
# Variants

Variants are types of which a bijection between the variables makes one from the other. They are the
types that are instances of one another, and the types with one canonical form. So comparing
canonical forms decides whether two types stand for the same scheme, however many variables they
have and whatever the variables are called.
-/

namespace Combinatory
namespace Ty

section

variable {first second third type : Ty} {name : String}

/-! ## Instances -/

theorem isInstance_refl (type : Ty) : type.isInstance type = true :=
  isInstance_iff.mpr ⟨var, bind_var type⟩

theorem isInstance_trans (inner : first.isInstance second = true)
    (outer : second.isInstance third = true) : first.isInstance third = true := by
  obtain ⟨inside, rfl⟩ := isInstance_iff.mp inner
  obtain ⟨outside, rfl⟩ := isInstance_iff.mp outer
  exact isInstance_iff.mpr ⟨_, (bind_bind outside inside third).symm⟩

theorem isInstance_bind (type : Ty) (replacement : String → Ty) :
    (type.bind replacement).isInstance type = true :=
  isInstance_iff.mpr ⟨replacement, rfl⟩

theorem canonicalize_isInstance (type : Ty) : type.canonicalize.isInstance type = true :=
  isInstance_bind type _

theorem isInstance_canonicalize (type : Ty) : type.isInstance type.canonicalize = true :=
  isInstance_iff.mpr (exists_canonicalize_bind_iff.mpr ⟨var, bind_var type⟩)

/-! ## Replacing variables -/

theorem mentions_bind {replacement : String → Ty} :
    (type.bind replacement).mentions name = true ↔
      ∃ other, type.mentions other = true ∧ (replacement other).mentions name = true := by
  induction type with
  | var other => simp [bind, mentions]
  | arrow dom cod dom_ih cod_ih =>
      simp only [bind, mentions, Bool.or_eq_true, dom_ih, cod_ih]
      grind

/-- Replacements that give the same type agree on its variables. -/
theorem eq_of_bind_eq {left right : String → Ty} (equal : type.bind left = type.bind right)
    (occurs : type.mentions name = true) : left name = right name := by
  induction type with
  | var other =>
      obtain rfl : other = name := by simpa [mentions] using occurs
      exact equal
  | arrow dom cod dom_ih cod_ih =>
      obtain ⟨dom_equal, cod_equal⟩ := Ty.arrow.inj equal
      rcases Bool.or_eq_true_iff.mp occurs with occurs | occurs
      · exact dom_ih dom_equal occurs
      · exact cod_ih cod_equal occurs

/-! ## Bijections between variables -/

/-- A bijection between their variables makes the second type from the first one. -/
def Variant (first second : Ty) : Prop :=
  ∃ names : String → String,
    Set.BijOn names {name | first.mentions name = true} {name | second.mentions name = true} ∧
      first.mapVars names = second

/-- Giving the variables of a type distinct names makes a variant. -/
theorem variant_mapVars {names : String → String}
    (distinct : Set.InjOn names {name | type.mentions name = true}) :
    type.Variant (type.mapVars names) := by
  refine ⟨names, ⟨?_, distinct, ?_⟩, rfl⟩
  · intro name occurs
    exact mentions_bind.mpr ⟨name, occurs, by simp [mentions]⟩
  · intro name occurs
    obtain ⟨other, other_occurs, same⟩ := mentions_bind.mp occurs
    exact ⟨other, other_occurs, by simpa [mentions] using same⟩

/-- Giving the variables of a type distinct labels makes a variant. -/
theorem variant_relabel {label : Nat → String} (distinct : Function.Injective label) (type : Ty) :
    type.Variant (type.relabel label) := by
  apply variant_mapVars
  intro name occurs other other_occurs same
  exact (List.idxOf_inj (mem_vars.mpr occurs)).mp (distinct same)

/-- Types that are instances of one another are variants: what the way back makes a variable must
have been one. -/
theorem variant_of_isInstance (into : first.isInstance second = true)
    (back : second.isInstance first = true) : first.Variant second := by
  obtain ⟨outward, rfl⟩ := isInstance_iff.mp back
  obtain ⟨inward, returned⟩ := isInstance_iff.mp into
  have variable_kept : ∀ name, first.mentions name = true →
      ∃ other, outward name = var other ∧ inward other = var name := by
    intro name occurs
    rw [bind_bind] at returned
    have undone : (outward name).bind inward = var name :=
      eq_of_bind_eq (returned.trans (bind_var first).symm) occurs
    cases image : outward name with
    | var other => exact ⟨other, rfl, by simpa [image, bind] using undone⟩
    | arrow dom cod => simp [image, bind] at undone
  choose! names named restored using variable_kept
  have renamed : first.mapVars names = first.bind outward :=
    bind_congr fun name occurs => (named name occurs).symm
  rw [← renamed]
  apply variant_mapVars
  intro name occurs other other_occurs same
  have restored_same := restored name occurs
  rw [same, restored other other_occurs] at restored_same
  exact (Ty.var.inj restored_same).symm

theorem Variant.canonicalize_eq (variant : first.Variant second) :
    first.canonicalize = second.canonicalize := by
  obtain ⟨names, bijection, rfl⟩ := variant
  exact (canonicalize_mapVars_of_injOn bijection.injOn).symm

theorem isInstance_of_canonicalize_eq (same : first.canonicalize = second.canonicalize) :
    first.isInstance second = true :=
  isInstance_trans (same ▸ isInstance_canonicalize first) (canonicalize_isInstance second)

theorem canonicalize_eq_iff_isInstance :
    first.canonicalize = second.canonicalize ↔
      first.isInstance second = true ∧ second.isInstance first = true := by
  constructor
  · intro same
    exact ⟨isInstance_of_canonicalize_eq same, isInstance_of_canonicalize_eq same.symm⟩
  · rintro ⟨into, back⟩
    exact (variant_of_isInstance into back).canonicalize_eq

theorem canonicalize_canonicalize (type : Ty) :
    type.canonicalize.canonicalize = type.canonicalize :=
  canonicalize_eq_iff_isInstance.mpr ⟨canonicalize_isInstance type, isInstance_canonicalize type⟩

theorem written_canonicalize (type : Ty) : type.canonicalize.Written := by
  intro name occurs
  obtain ⟨other, -, same⟩ := mentions_bind.mp occurs
  obtain rfl : canonicalName (type.vars.idxOf other) = name := by simpa [mentions] using same
  exact isWritable_canonicalName _

end

/--
Being an instance is a preorder, of which canonical forms pick out the classes: two types have the
same canonical form exactly if each is an instance of the other, and this is so exactly if they
differ by a bijection between their variables. A canonical form is its own canonical form, it and
the type are instances of one another, and all of its names may be written.
-/
theorem canonical_forms_decide_schemes :
    (∀ type : Ty, type.isInstance type = true) ∧
      (∀ first second third : Ty, first.isInstance second = true →
        second.isInstance third = true → first.isInstance third = true) ∧
      (∀ first second : Ty,
        (first.canonicalize = second.canonicalize ↔
            first.isInstance second = true ∧ second.isInstance first = true) ∧
          (first.isInstance second = true ∧ second.isInstance first = true ↔
            first.Variant second)) ∧
      ∀ type : Ty,
        type.canonicalize.canonicalize = type.canonicalize ∧
          type.canonicalize.isInstance type = true ∧ type.isInstance type.canonicalize = true ∧
            type.canonicalize.Written := by
  refine ⟨isInstance_refl, fun _ _ _ => isInstance_trans, fun first second => ?_, fun type => ?_⟩
  · refine ⟨canonicalize_eq_iff_isInstance, fun each => ?_, fun variant => ?_⟩
    · exact variant_of_isInstance each.1 each.2
    · exact canonicalize_eq_iff_isInstance.mp variant.canonicalize_eq
  · exact ⟨canonicalize_canonicalize type, canonicalize_isInstance type,
      isInstance_canonicalize type, written_canonicalize type⟩

/-- Names are replaced at once, where a canonical name stands for another variable already. -/
example : canonicalize (.arrow (.var "c") (.arrow (.var "a") (.var "c"))) =
    .arrow (.var "a") (.arrow (.var "b") (.var "a")) := by decide

end Ty
end Combinatory
