import Combinatory.Proofs.Ty.Matching
import Combinatory.Proofs.Ty.Traversal
import Combinatory.Ty.Scheme
import Mathlib.Data.Set.Function

/-!
# Renaming the variables of a type

Drawn and canonical names are told apart by their numbers, so giving the variables of a type such
names by their order of first appearance can be undone. A type and the same type with other names
therefore have the same instances. Canonical names may be written and drawn ones may not, so what is
drawn never occurs in a written type.
-/

namespace Combinatory
namespace Ty

/-! ## Names by number -/

/-- Numbers are told apart by how they are written. -/
theorem toString_nat_injective : Function.Injective fun number : Nat => toString number := by
  intro first second same
  have digits := congrArg (fun text : String => Nat.ofDigitChars 10 text.toList 0) same
  simpa [Nat.toString_eq_ofList_toDigits] using digits

theorem drawnName_injective : Function.Injective drawnName := by
  intro first second same
  exact toString_nat_injective ((String.append_right_inj "_").mp same)

/-- The names in a row from a drawn one on are told apart by their places. -/
theorem drawnName_add_injective (start : Nat) :
    Function.Injective fun place => drawnName (start + place) :=
  drawnName_injective.comp fun _ _ => Nat.add_left_cancel

/-- The letters that canonical names begin with are told apart by their place in the alphabet. -/
theorem letter_toNat (place : Fin 26) :
    (Char.ofNat ('a'.toNat + place)).toNat = 'a'.toNat + place := by
  decide +revert

/-- A canonical name is a letter, followed by a number if the alphabet has been used up. -/
theorem canonicalName_toList (index : Nat) :
    (canonicalName index).toList =
      Char.ofNat ('a'.toNat + index % 26) ::
        if index < 26 then [] else (toString (index / 26)).toList := by
  simp only [canonicalName]
  split <;> simp

theorem canonicalName_injective : Function.Injective canonicalName := by
  intro first second same
  have chars := congrArg String.toList same
  rw [canonicalName_toList, canonicalName_toList] at chars
  obtain ⟨letters, numbers⟩ := List.cons.inj chars
  have places : first % 26 = second % 26 := by
    have codes := congrArg Char.toNat letters
    have first_code := letter_toNat ⟨first % 26, Nat.mod_lt _ (by decide)⟩
    have second_code := letter_toNat ⟨second % 26, Nat.mod_lt _ (by decide)⟩
    simp only at first_code second_code
    omega
  have number_ne (number : Nat) : (toString number).toList ≠ [] := by
    simp [Nat.toDigits_ne_nil]
  split at numbers <;> split at numbers
  · omega
  · exact absurd numbers.symm (number_ne _)
  · exact absurd numbers (number_ne _)
  · have rounds := toString_nat_injective (String.toList_injective numbers)
    omega

theorem isNamePart_of_isDigit {c : Char} (digit : c.isDigit = true) : isNamePart c = true := by
  simp only [Char.isDigit, Bool.and_eq_true, decide_eq_true_eq] at digit
  simp only [isNamePart, Bool.or_eq_true, Bool.and_eq_true, decide_eq_true_eq]
  exact .inr digit

theorem isNameRest_of_forall {rest : List Char} (parts : ∀ c ∈ rest, isNamePart c = true) :
    isNameRest rest = true := by
  fun_induction isNameRest rest with
  | case1 => rfl
  | case2 => rfl
  | case3 c rest _ ih =>
      rw [parts c List.mem_cons_self, ih fun c member => parts c (List.mem_cons_of_mem _ member)]
      rfl

/-- Canonical names may be written. -/
theorem isWritable_canonicalName (index : Nat) : isWritable (canonicalName index) = true := by
  have letter_starts (place : Fin 26) :
      isNameStart (Char.ofNat ('a'.toNat + place)) = true := by
    decide +revert
  rw [isWritable, canonicalName_toList]
  simp only [Bool.and_eq_true]
  refine ⟨letter_starts ⟨index % 26, Nat.mod_lt _ (by decide)⟩, isNameRest_of_forall ?_⟩
  intro c member
  split at member
  · simp at member
  · rw [Nat.toString_eq_ofList_toDigits, String.toList_ofList] at member
    exact isNamePart_of_isDigit (Nat.isDigit_of_mem_toDigits (by decide) (by decide) member)

/-- Drawn names may not be written. -/
theorem isWritable_drawnName (number : Nat) : isWritable (drawnName number) = false := by
  rw [isWritable, drawnName, String.toList_append]
  rfl

/-! ## Types that may be written -/

/-- All variables of the type have names that may be written. -/
def Written (type : Ty) : Prop :=
  ∀ name, type.mentions name = true → isWritable name = true

theorem written_var {name : String} : (var name).Written ↔ isWritable name = true := by
  simp [Written, mentions]

theorem written_arrow {dom cod : Ty} : (arrow dom cod).Written ↔ dom.Written ∧ cod.Written := by
  simp only [Written, mentions, Bool.or_eq_true, or_imp, forall_and]

/-- No drawn variable occurs in a type that is written. -/
theorem Written.drawnName_ne {type : Ty} {name : String} (written : type.Written)
    (occurs : type.mentions name = true) (number : Nat) : name ≠ drawnName number := by
  rintro rfl
  simpa [isWritable_drawnName] using written _ occurs

/-! ## Renaming and instances -/

/-- Renaming and then replacing is replacing at once where the two agree on all variables. -/
theorem bind_relabel {label : Nat → String} {type : Ty} {replacement direct : String → Ty}
    (agree : ∀ name, type.mentions name = true →
      replacement (label (type.vars.idxOf name)) = direct name) :
    (type.relabel label).bind replacement = type.bind direct := by
  rw [relabel, bind_bind]
  exact bind_congr fun name occurs => agree name occurs

/-- Renaming by distinct labels can be undone by a replacement that leaves alone what is no label;
it may replace the variables on the way back. -/
theorem exists_bind_relabel {label : Nat → String} (distinct : Function.Injective label)
    (type : Ty) (direct : String → Ty) :
    ∃ replacement, (type.relabel label).bind replacement = type.bind direct ∧
      ∀ name, name ∉ Set.range label → replacement name = var name := by
  let byPlace (place : Nat) : Ty := direct (type.vars.getD place "")
  refine ⟨Function.extend label byPlace var, bind_relabel fun name occurs => ?_, ?_⟩
  · have listed := mem_vars.mpr occurs
    rw [distinct.extend_apply]
    simp [byPlace, List.getD_eq_getElem?_getD, List.getElem?_idxOf listed]
  · exact fun name unlabelled => Function.extend_apply' byPlace var name unlabelled

/-- Renaming by distinct labels does not change the instances of a type. -/
theorem exists_relabel_bind_iff {label : Nat → String} (distinct : Function.Injective label)
    {type specific : Ty} :
    (∃ replacement, (type.relabel label).bind replacement = specific) ↔
      ∃ replacement, type.bind replacement = specific := by
  constructor
  · rintro ⟨replacement, rfl⟩
    exact ⟨_, (bind_bind _ _ _).symm⟩
  · rintro ⟨direct, rfl⟩
    obtain ⟨replacement, equal, -⟩ := exists_bind_relabel distinct type direct
    exact ⟨replacement, equal⟩

theorem exists_canonicalize_bind_iff {type specific : Ty} :
    (∃ replacement, type.canonicalize.bind replacement = specific) ↔
      ∃ replacement, type.bind replacement = specific :=
  exists_relabel_bind_iff canonicalName_injective

/-! ## Types that differ by names -/

/-- Give every variable another name. -/
def mapVars (rename : String → String) (type : Ty) : Ty :=
  type.bind fun name => var (rename name)

theorem size_mapVars (rename : String → String) (type : Ty) :
    (type.mapVars rename).size = type.size := by
  induction type with
  | var name => rfl
  | arrow dom cod dom_ih cod_ih =>
      simp only [mapVars] at dom_ih cod_ih
      simp [mapVars, bind, size, dom_ih, cod_ih]

theorem leaves_mapVars (rename : String → String) (type : Ty) :
    (type.mapVars rename).leaves = type.leaves.map rename := by
  induction type with
  | var name => rfl
  | arrow dom cod dom_ih cod_ih =>
      simp only [mapVars] at dom_ih cod_ih
      simp [mapVars, bind, leaves, dom_ih, cod_ih]

/-- The variables are met in the same order under their new names. -/
theorem vars_mapVars {rename : String → String} {type : Ty}
    (distinct : Set.InjOn rename {name | type.mentions name = true}) :
    (type.mapVars rename).vars = type.vars.map rename := by
  have apart : ∀ first ∈ type.leaves, ∀ second ∈ type.leaves,
      (rename first == rename second) = (first == second) := by
    intro first first_mem second second_mem
    rw [Bool.eq_iff_iff, beq_iff_eq, beq_iff_eq]
    exact distinct.eq_iff (mem_leaves.mp first_mem) (mem_leaves.mp second_mem)
  rw [vars_eq_eraseDups_leaves, leaves_mapVars, eraseDups_map _ apart,
    ← vars_eq_eraseDups_leaves]

theorem idxOf_map_of_injOn {names : List String} {rename : String → String}
    (distinct : Set.InjOn rename {name | name ∈ names}) {name : String} (listed : name ∈ names) :
    (names.map rename).idxOf (rename name) = names.idxOf name := by
  induction names with
  | nil => simp at listed
  | cons other names ih =>
      by_cases same : other = name
      · simp [same]
      · have rename_ne : rename other ≠ rename name := fun equal =>
          same (distinct List.mem_cons_self listed equal)
        rw [List.map_cons, List.idxOf_cons_ne _ rename_ne, List.idxOf_cons_ne _ same,
          ih (distinct.mono fun _ member => List.mem_cons_of_mem _ member)
            (List.mem_of_ne_of_mem (Ne.symm same) listed)]

/-- Labels go by places in the order of first appearance, which do not depend on the names. -/
theorem relabel_mapVars_of_injOn (label : Nat → String) {rename : String → String} {type : Ty}
    (distinct : Set.InjOn rename {name | type.mentions name = true}) :
    (type.mapVars rename).relabel label = type.relabel label := by
  simp only [relabel, vars_mapVars distinct]
  rw [mapVars, bind_bind]
  apply bind_congr
  intro name occurs
  rw [bind, idxOf_map_of_injOn (distinct.mono fun _ => mem_vars.mp) (mem_vars.mpr occurs)]

/-- Types whose variables have other names, of which no two are the same, have the same canonical
form. -/
theorem canonicalize_mapVars_of_injOn {rename : String → String} {type : Ty}
    (distinct : Set.InjOn rename {name | type.mentions name = true}) :
    (type.mapVars rename).canonicalize = type.canonicalize :=
  relabel_mapVars_of_injOn canonicalName distinct

/-- Types that differ by the names of their variables have the same canonical form. -/
theorem canonicalize_mapVars {rename : String → String} (distinct : Function.Injective rename)
    (type : Ty) : (type.mapVars rename).canonicalize = type.canonicalize :=
  canonicalize_mapVars_of_injOn distinct.injOn

end Ty
end Combinatory
