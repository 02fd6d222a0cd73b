import Combinatory.Proofs.Ty.Traversal
import Combinatory.Proofs.Ty.Variant

/-!
# Drawn variables are new

A supply only counts up. What a call draws from it is numbered from where the supply stood before
the call to where it stands after it, so no variable is drawn twice, whatever calls are made and in
whatever order. No drawn name may be written either. A copy of a type therefore has no variable in
common with anything that was there before it was made, nor with anything drawn later, and as its
variables are drawn one for each variable of the type, it is a variant of the type.
-/

namespace Combinatory

namespace Ty

/-- All variables of the type are drawn ones, with numbers from the first up to the second. -/
def DrawnWithin (first last : Nat) (type : Ty) : Prop :=
  ∀ name, type.mentions name = true →
    ∃ number, first ≤ number ∧ number < last ∧ name = drawnName number

section

variable {first middle last outerFirst outerLast : Nat} {type other : Ty}

theorem drawnWithin_var (number : Nat) :
    (var (drawnName number)).DrawnWithin number (number + 1) := by
  intro name occurs
  obtain rfl : drawnName number = name := by simpa [mentions] using occurs
  exact ⟨number, Nat.le_refl number, Nat.lt_succ_self number, rfl⟩

theorem drawnWithin_relabel (first : Nat) (type : Ty) :
    (type.relabel fun place => drawnName (first + place)).DrawnWithin first
      (first + type.vars.length) := by
  intro name occurs
  obtain ⟨other, other_occurs, same⟩ := mentions_bind.mp occurs
  obtain rfl : drawnName (first + type.vars.idxOf other) = name := by
    simpa [mentions] using same
  have inside := List.idxOf_lt_length_of_mem (mem_vars.mpr other_occurs)
  exact ⟨_, Nat.le_add_right _ _, Nat.add_lt_add_left inside first, rfl⟩

theorem DrawnWithin.mono (drawn : type.DrawnWithin first last) (from_le : outerFirst ≤ first)
    (to_le : last ≤ outerLast) : type.DrawnWithin outerFirst outerLast := by
  intro name occurs
  obtain ⟨number, first_le, lt_last, named⟩ := drawn name occurs
  exact ⟨number, Nat.le_trans from_le first_le, Nat.lt_of_lt_of_le lt_last to_le, named⟩

/-- Variables that are drawn later are others. -/
theorem DrawnWithin.disjoint (drawn : type.DrawnWithin first middle)
    (later : other.DrawnWithin middle last) : type.freeVars.Disjoint other.freeVars := by
  intro name occurs occurs_later
  obtain ⟨number, -, below, named⟩ := drawn name (mem_freeVars.mp occurs)
  obtain ⟨laterNumber, above, -, later_named⟩ := later name (mem_freeVars.mp occurs_later)
  have same := drawnName_injective (named.symm.trans later_named)
  omega

end

end Ty

namespace Supply

open Ty (drawnName)

/-! ## Copies by single draws -/

/-- Draw a variable for each of the names in turn, and bind the name to it. -/
def drawEach (names : List String) : StateM Supply Subst :=
  names.foldlM (fun subst name => do return subst.insert name (← fresh)) .empty

theorem drawEach_concat (names : List String) (name : String) (supply : Supply) :
    (drawEach (names ++ [name])).run supply =
      (((drawEach names).run supply).1.insert name
          (.var (drawnName ((drawEach names).run supply).2.next)),
        ⟨((drawEach names).run supply).2.next + 1⟩) := by
  rw [drawEach, List.foldlM_append]
  rfl

theorem drawEach_next (names : List String) (supply : Supply) :
    ((drawEach names).run supply).2 = ⟨supply.next + names.length⟩ := by
  induction names using List.reverseRecOn with
  | nil => rfl
  | append_singleton names name ih =>
      rw [drawEach_concat, ih, List.length_append, List.length_singleton, Nat.add_assoc]

/-- Names that are all different are bound to variables with numbers in a row. -/
theorem get?_drawEach {names : List String} (distinct : names.Nodup) (supply : Supply)
    {name : String} (listed : name ∈ names) :
    ((drawEach names).run supply).1.get? name =
      some (.var (drawnName (supply.next + names.idxOf name))) := by
  -- From the end, as the last name is bound on top of the others.
  induction names using List.reverseRecOn with
  | nil => cases listed
  | append_singleton names last ih =>
      obtain ⟨names_distinct, -, apart⟩ := List.nodup_append.mp distinct
      rw [drawEach_concat, drawEach_next, Subst.get?_insert]
      split
      · next same =>
          have new : name ∉ names := fun known =>
            apart name known last (List.mem_singleton_self last) same
          rw [List.idxOf_append_of_notMem new, same, List.idxOf_cons_self, Nat.add_zero]
      · next differ =>
          have known : name ∈ names := by simpa [differ] using listed
          rw [ih names_distinct known, List.idxOf_append_of_mem known]

/-- A copy is the type renamed by variables that are drawn for its own, one after another. -/
theorem instantiate_eq_rename (type : Ty) :
    instantiate type = do return (← drawEach type.vars).rename type := by
  funext supply
  have renamed : type.relabel (fun place => drawnName (supply.next + place)) =
      ((drawEach type.vars).run supply).1.rename type := by
    apply Ty.bind_congr
    intro name occurs
    rw [get?_drawEach type.nodup_vars supply (Ty.mem_vars.mpr occurs), Option.getD_some]
  exact Prod.ext renamed (drawEach_next type.vars supply).symm

/-! ## Histories -/

/-- A use of a supply. -/
inductive Call where
  /-- A variable is drawn. -/
  | fresh
  /-- The type is copied. -/
  | instantiate (type : Ty)

/-- What a call gives back. -/
def Call.answer : Call → StateM Supply Ty
  | .fresh => Supply.fresh
  | .instantiate type => Supply.instantiate type

/-- What calls give back that are made one after another, from the start on. -/
def answers (calls : List Call) : List Ty :=
  ((calls.mapM Call.answer).run start).1

/-- The supply after the calls. -/
def afterCalls (calls : List Call) : Supply :=
  ((calls.mapM Call.answer).run start).2

/-- The types that are there after the answers have been given: they are built from variables that
may be written, variables that were drawn, and arrows. -/
inductive Available (earlier : List Ty) : Ty → Prop
  /-- A variable with a name that may be written. -/
  | written {name : String} (writable : Ty.isWritable name = true) : Available earlier (.var name)
  /-- A variable that was drawn for an answer. -/
  | drawn {name : String} {answer : Ty} (given : answer ∈ earlier)
      (occurs : answer.mentions name = true) : Available earlier (.var name)
  /-- The type of functions between two such types. -/
  | arrow {dom cod : Ty} (dom_available : Available earlier dom)
      (cod_available : Available earlier cod) : Available earlier (.arrow dom cod)

/-- A call draws from where the supply stands, and moves it past what was drawn. -/
theorem Call.drawnWithin_answer (call : Call) (supply : Supply) :
    supply.next ≤ (call.answer.run supply).2.next ∧
      (call.answer.run supply).1.DrawnWithin supply.next (call.answer.run supply).2.next := by
  cases call with
  | fresh => exact ⟨Nat.le_succ _, Ty.drawnWithin_var _⟩
  | instantiate type => exact ⟨Nat.le_add_right _ _, Ty.drawnWithin_relabel _ type⟩

/-- So do calls that are made one after another: no answer reaches outside of what they draw. -/
theorem drawnWithin_mapM_answer (calls : List Call) (supply : Supply) :
    supply.next ≤ ((calls.mapM Call.answer).run supply).2.next ∧
      ∀ answer ∈ ((calls.mapM Call.answer).run supply).1,
        answer.DrawnWithin supply.next ((calls.mapM Call.answer).run supply).2.next := by
  induction calls generalizing supply with
  | nil => exact ⟨Nat.le_refl _, nofun⟩
  | cons call calls ih =>
      obtain ⟨first_le, first_drawn⟩ := call.drawnWithin_answer supply
      obtain ⟨rest_le, rest_drawn⟩ := ih (call.answer.run supply).2
      have run_cons : ((call :: calls).mapM Call.answer).run supply =
          ((call.answer.run supply).1 ::
              ((calls.mapM Call.answer).run (call.answer.run supply).2).1,
            ((calls.mapM Call.answer).run (call.answer.run supply).2).2) := by
        rw [List.mapM_cons]
        rfl
      rw [run_cons]
      refine ⟨Nat.le_trans first_le rest_le, fun answer given => ?_⟩
      rcases List.mem_cons.mp given with rfl | given
      · exact first_drawn.mono (Nat.le_refl _) rest_le
      · exact (rest_drawn answer given).mono first_le (Nat.le_refl _)

theorem answers_append_cons (before after : List Call) (call : Call) :
    answers (before ++ call :: after) =
      answers before ++ (call.answer.run (afterCalls before)).1 ::
        ((after.mapM Call.answer).run (call.answer.run (afterCalls before)).2).1 := by
  rw [answers, List.mapM_append, List.mapM_cons]
  rfl

/-- A variable of an available type may be written or has been drawn by the calls so far. -/
theorem Available.written_or_drawn {calls : List Call} {type : Ty} {name : String}
    (available : Available (answers calls) type) (occurs : type.mentions name = true) :
    Ty.isWritable name = true ∨
      ∃ number < (afterCalls calls).next, name = drawnName number := by
  induction available with
  | written writable =>
      obtain rfl := by simpa [Ty.mentions] using occurs
      exact .inl writable
  | drawn given answer_occurs =>
      obtain rfl := by simpa [Ty.mentions] using occurs
      obtain ⟨number, -, below, named⟩ :=
        (drawnWithin_mapM_answer calls start).2 _ given _ answer_occurs
      exact .inr ⟨number, below, named⟩
  | arrow _ _ dom_ih cod_ih =>
      rcases Bool.or_eq_true_iff.mp occurs with occurs | occurs
      · exact dom_ih occurs
      · exact cod_ih occurs

/-- What is drawn after the calls does not occur in a type that is available after them. -/
theorem Available.disjoint {calls : List Call} {existing type : Ty} {last : Nat}
    (available : Available (answers calls) existing)
    (drawn : type.DrawnWithin (afterCalls calls).next last) :
    type.freeVars.Disjoint existing.freeVars := by
  intro name occurs existing_occurs
  obtain ⟨number, above, -, named⟩ := drawn name (Ty.mem_freeVars.mp occurs)
  rcases available.written_or_drawn (Ty.mem_freeVars.mp existing_occurs) with
      writable | ⟨earlier, below, earlier_named⟩
  · rw [named, Ty.isWritable_drawnName] at writable
    cases writable
  · have same := Ty.drawnName_injective (named.symm.trans earlier_named)
    omega

/--
In any history of calls, copying a type that is available when it is copied gives a type without a
variable in common with it, with any other type that is available then, or with anything that the
calls before and after give back. The copy is made by drawing a variable for each variable of the
type and renaming the type by them; it is a variant of the type, so both have the same canonical
form.
-/
theorem copies_are_disjoint_variants (before after : List Call) {type : Ty}
    (available : Available (answers before) type) :
    (instantiate type = do return (← drawEach type.vars).rename type) ∧
      ∃ copy later,
        answers (before ++ .instantiate type :: after) = answers before ++ copy :: later ∧
          copy.freeVars.Disjoint type.freeVars ∧
          (∀ existing, Available (answers before) existing →
            copy.freeVars.Disjoint existing.freeVars) ∧
          (∀ other ∈ answers before ++ later, copy.freeVars.Disjoint other.freeVars) ∧
          type.Variant copy ∧ copy.canonicalize = type.canonicalize := by
  have drawn := ((Call.instantiate type).drawnWithin_answer (afterCalls before)).2
  have variant := Ty.variant_relabel (Ty.drawnName_add_injective (afterCalls before).next) type
  refine ⟨instantiate_eq_rename type, _, _, answers_append_cons before after _,
    available.disjoint drawn, fun existing there => there.disjoint drawn, fun other given => ?_,
    variant, variant.canonicalize_eq.symm⟩
  rcases List.mem_append.mp given with given | given
  · have earlier := (drawnWithin_mapM_answer before start).2 other given
    exact (earlier.disjoint drawn).symm
  · have further := (drawnWithin_mapM_answer after _).2 other given
    exact drawn.disjoint further

/-- A type with a written variable, a drawn one and one of an earlier copy is copied between other
calls. -/
theorem copy_between_draws_is_disjoint :
    let before : List Call := [.fresh, .instantiate (.arrow (.var "a") (.var "b"))]
    let type : Ty := .arrow (.var "_0") (.arrow (.var "a") (.var "_2"))
    let copy : Ty := .arrow (.var "_3") (.arrow (.var "_4") (.var "_5"))
    Available (answers before) type ∧
      answers (before ++ .instantiate type :: [.fresh]) =
        answers before ++ copy :: [.var "_6"] ∧
      copy.freeVars.Disjoint type.freeVars ∧ copy.canonicalize = type.canonicalize := by
  intro before type copy
  have drawn_given : Ty.var "_0" ∈ answers before := by decide
  have copy_given : Ty.arrow (.var "_1") (.var "_2") ∈ answers before := by decide
  have available : Available (answers before) type :=
    .arrow (.drawn drawn_given (by decide))
      (.arrow (.written (by decide)) (.drawn copy_given (by decide)))
  have given : answers (before ++ .instantiate type :: [.fresh]) =
      answers before ++ copy :: [.var "_6"] := by decide
  obtain ⟨-, made, later, made_given, apart, -, -, -, same⟩ :=
    copies_are_disjoint_variants before [.fresh] available
  obtain ⟨rfl, -⟩ := List.cons.inj (List.append_cancel_left (made_given.symm.trans given))
  exact ⟨available, given, apart, same⟩

end Supply
end Combinatory
