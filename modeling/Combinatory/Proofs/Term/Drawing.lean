import Combinatory.Proofs.Term.Sharing
import Combinatory.Proofs.Ty.Renaming

/-!
# Drawn variables

Over a session all variables are drawn from one supply, and the types of applications are
remembered. So which variables an inference draws depends on everything typed before: the variable
for a result is drawn before its parts are typed, the copies of the types of the parts after that,
and nothing is drawn for an application that is remembered. Whatever is drawn, an inference solves
the equation of `Ty.applied` under other names. Its outcome is therefore the same, but for the names
of the drawn variables in a refusal, which are not told when the refusal is reported.
-/

namespace Combinatory

/-! ## Other numbers for drawn variables -/

namespace Ty

/-- Give drawn variables other numbers, and leave all others alone. -/
noncomputable def redraw (shift : Nat → Nat) : String → String :=
  Function.extend drawnName (fun number => drawnName (shift number)) id

theorem redraw_drawnName (shift : Nat → Nat) (number : Nat) :
    redraw shift (drawnName number) = drawnName (shift number) :=
  drawnName_injective.extend_apply _ _ number

theorem redraw_injective {shift : Nat → Nat} (distinct : Function.Injective shift) :
    Function.Injective (redraw shift) := by
  have kept {name : String} (undrawn : ¬ ∃ number, drawnName number = name) :
      redraw shift name = name :=
    Function.extend_apply' _ _ name undrawn
  intro first second same
  by_cases first_drawn : ∃ number, drawnName number = first <;>
    by_cases second_drawn : ∃ number, drawnName number = second
  · obtain ⟨number, rfl⟩ := first_drawn
    obtain ⟨other, rfl⟩ := second_drawn
    rw [redraw_drawnName, redraw_drawnName] at same
    rw [distinct (drawnName_injective same)]
  · obtain ⟨number, rfl⟩ := first_drawn
    rw [redraw_drawnName, kept second_drawn] at same
    exact absurd ⟨_, same⟩ second_drawn
  · obtain ⟨number, rfl⟩ := second_drawn
    rw [redraw_drawnName, kept first_drawn] at same
    exact absurd ⟨_, same.symm⟩ first_drawn
  · rwa [kept first_drawn, kept second_drawn] at same

theorem mapVars_redraw_relabel (shift label : Nat → Nat) (type : Ty) :
    (type.relabel fun place => drawnName (label place)).mapVars (redraw shift) =
      type.relabel fun place => drawnName (shift (label place)) := by
  simp only [relabel, mapVars_bind, mapVars_var, redraw_drawnName]

/-- The type of an application whose variables are drawn at the given numbers: one for the result,
and those for the copies of the argument's and the function's type from some number on. -/
def appliedAt (result argStart fnStart : Nat) (fnType argType : Ty) :
    Except UnificationFailure Ty :=
  let solved := Subst.empty.unify (fnType.relabel fun place => drawnName (fnStart + place))
    (arrow (argType.relabel fun place => drawnName (argStart + place)) (var (drawnName result)))
  match solved with
  | .ok subst => .ok (subst.resolve (var (drawnName result))).canonicalize
  | .error failure => .error failure

theorem applied_eq_appliedAt (supply : Supply) (fnType argType : Ty) :
    applied supply fnType argType =
      appliedAt supply.next (supply.next + 1) (supply.next + 1 + argType.vars.length) fnType
        argType := rfl

/-- The equation for an application refuses the same types wherever its variables are drawn, and
otherwise has the same result. -/
theorem appliedAt_mapVars {result argStart fnStart otherResult otherArgStart otherFnStart : Nat}
    {fnType argType : Ty} {shift : Nat → Nat} (distinct : Function.Injective shift)
    (result_shift : shift result = otherResult)
    (arg_shift : ∀ place < argType.vars.length, shift (argStart + place) = otherArgStart + place)
    (fn_shift : ∀ place, shift (fnStart + place) = otherFnStart + place) :
    appliedAt otherResult otherArgStart otherFnStart fnType argType =
      (appliedAt result argStart fnStart fnType argType).mapError
        (UnificationFailure.mapVars (redraw shift)) := by
  have renamed := redraw_injective distinct
  have arg_copy : argType.relabel (fun place => drawnName (shift (argStart + place))) =
      argType.relabel fun place => drawnName (otherArgStart + place) := by
    apply bind_congr
    intro name occurs
    simp only [arg_shift _ (List.idxOf_lt_length_of_mem (mem_vars.mpr occurs))]
  have solved := Subst.unify_mapVars renamed Subst.empty
    (fnType.relabel fun place => drawnName (fnStart + place))
    (arrow (argType.relabel fun place => drawnName (argStart + place)) (var (drawnName result)))
  rw [Subst.mapVars_empty, mapVars_arrow, mapVars_var, mapVars_redraw_relabel,
    mapVars_redraw_relabel, redraw_drawnName, arg_copy, result_shift] at solved
  simp only [fn_shift] at solved
  simp only [appliedAt, solved]
  cases Subst.empty.unify (fnType.relabel fun place => drawnName (fnStart + place))
      (arrow (argType.relabel fun place => drawnName (argStart + place))
        (var (drawnName result))) with
  | error failure => rfl
  | ok subst =>
      have resolved := Subst.resolve_mapVars renamed subst (var (drawnName result))
      rw [mapVars_var, redraw_drawnName, result_shift] at resolved
      simp only [Subst.outcomeUnder, Except.mapError, resolved, canonicalize_mapVars renamed]

/-- The numbers of the variables for an application, moved to where others are drawn for it. -/
def moveTo (argCount result argStart fnStart number : Nat) : Nat :=
  if number = 0 then result
  else if number < 1 + argCount then argStart + (number - 1)
  else fnStart + (number - (1 + argCount))

theorem moveTo_injective {argCount result argStart fnStart : Nat} (result_lt : result < argStart)
    (arg_le : argStart + argCount ≤ fnStart) :
    Function.Injective (moveTo argCount result argStart fnStart) := by
  intro first second same
  grind [moveTo]

/-- Wherever the variables for an application are drawn one after another, its type is that for a
supply from which nothing has been drawn, and so is its refusal, but for the numbers of the drawn
variables. -/
theorem exists_appliedAt_eq {result argStart fnStart : Nat} (fnType : Ty) {argType : Ty}
    (result_lt : result < argStart) (arg_le : argStart + argType.vars.length ≤ fnStart) :
    ∃ shift : Nat → Nat, Function.Injective shift ∧
      appliedAt result argStart fnStart fnType argType =
        (applied .start fnType argType).mapError (UnificationFailure.mapVars (redraw shift)) := by
  refine ⟨moveTo argType.vars.length result argStart fnStart,
    moveTo_injective result_lt arg_le, ?_⟩
  rw [applied_eq_appliedAt]
  apply appliedAt_mapVars (moveTo_injective result_lt arg_le)
  · rfl
  · intro place place_lt
    grind [moveTo, Supply.start]
  · intro place
    grind [moveTo, Supply.start]

/-- What is refused is refused for drawn variables only. -/
theorem exists_drawn_of_applied_error {supply : Supply} {fnType argType : Ty}
    {failure : UnificationFailure} {name : String}
    (failed : applied supply fnType argType = .error failure)
    (occurs : failure.mentions name = true) : ∃ number, drawnName number = name := by
  rw [applied_eq] at failed
  split at failed
  · cases failed
  · next reason refused =>
      obtain rfl := Except.error.inj failed
      have copy_drawn {label : Nat → String} {type : Ty} (drawn : ∀ place, ∃ number,
          drawnName number = label place) (mentioned : (type.relabel label).mentions name = true) :
          ∃ number, drawnName number = name := by
        obtain ⟨other, -, same⟩ := mentions_bind.mp mentioned
        obtain rfl : label (type.vars.idxOf other) = name := by simpa [mentions] using same
        exact drawn _
      rcases Subst.mentions_of_unify_failure refused occurs with in_fn | in_arg
      · exact copy_drawn (fun place => ⟨_, rfl⟩) in_fn
      · rcases Bool.or_eq_true_iff.mp in_arg with in_arg | in_result
        · exact copy_drawn (fun place => ⟨_, rfl⟩) in_arg
        · exact ⟨supply.next, by simpa [resultVar, mentions] using in_result⟩

end Ty

/-! ## Sessions -/

/-- What a session of inferences goes on from. -/
structure Ledger where
  /-- The supply of variables. -/
  supply : Supply
  /-- The types of applications found so far. -/
  types : Std.HashMap Term Ty

namespace Ledger

/-- An inference in a session. -/
abbrev Inference := ExceptT (IllTyped Term) (StateM Ledger)

/-- A session that begins with the given supply. -/
def start (supply : Supply) : Ledger := { supply, types := ∅ }

/-- Where the types of applications are kept. -/
def typeSlot : Memo.Slot Ledger Term Ty :=
  ⟨types, fun table ledger => { ledger with types := table }⟩

/-- Draw from the supply of the session. -/
def draw {α : Type} (drawing : StateM Supply α) : Inference α :=
  ExceptT.mk fun ledger =>
    let (drawn, supply) := drawing.run ledger.supply
    (.ok drawn, { ledger with supply })

/-- The type of an application, by the types of its parts and by what has been drawn for it: the
variable for its result, and a copy of either type. -/
def solve (fn arg : Term) (fnType argType result dom copy : Ty) : Inference Ty :=
  match Subst.empty.unify copy (.arrow dom result) with
  | .ok subst => return (subst.resolve result).canonicalize
  | .error reason => throw { fn, arg, fnType, argType, reason }

/-- The principal type of a term, with variables drawn from the supply of the session. -/
def infer : Term → Inference Ty
  | .S => return Ty.distributor
  | .K => return Ty.constant
  | .I => return Ty.identity
  | .app fn arg => Memo.remember typeSlot (.app fn arg) do
      let result ← draw Supply.fresh
      let argType ← infer arg
      let dom ← draw (Supply.instantiate argType)
      let fnType ← infer fn
      let copy ← draw (Supply.instantiate fnType)
      solve fn arg fnType argType result dom copy

/-- What the session answers when it is asked for the type of a term. -/
def answer (ledger : Ledger) (term : Term) : Except (IllTyped Term) Ty :=
  ((infer term).outcome ledger).1

/-- The session after that. -/
def afterwards (ledger : Ledger) (term : Term) : Ledger :=
  ((infer term).outcome ledger).2

/-- The sessions that there can be: types are asked for, and variables are drawn for other uses. -/
inductive Reached : Ledger → Prop
  /-- Nothing has been asked for. -/
  | start (supply : Supply) : Reached (start supply)
  /-- The type of a term has been asked for, with or without success. -/
  | ask {ledger : Ledger} (reached : Reached ledger) (term : Term) :
      Reached (ledger.afterwards term)
  /-- Some variables have been drawn. -/
  | draw {ledger : Ledger} (reached : Reached ledger) (count : Nat) :
      Reached { ledger with supply := ⟨ledger.supply.next + count⟩ }

/-- The types that are remembered are those that inference finds without remembering any. -/
def Faithful (ledger : Ledger) : Prop :=
  ∀ (term : Term) (type : Ty), ledger.types[term]? = some type → term.typeOf = .ok type

end Ledger

namespace IllTyped

/-- The same refusal with other names for the variables of its reason. -/
def mapVars {τ : Type} (rename : String → String) (refusal : IllTyped τ) : IllTyped τ :=
  { refusal with reason := refusal.reason.mapVars rename }

/-- The refusal with the variables of its reason numbered in order of first appearance. -/
def renumber {τ : Type} (refusal : IllTyped τ) : IllTyped τ :=
  { refusal with reason := refusal.reason.renumber }

end IllTyped

/-- The first outcome is the second one, but for the numbers of drawn variables in a refusal. -/
def Redrawn (first second : Except (IllTyped Term) Ty) : Prop :=
  ∃ shift : Nat → Nat, Function.Injective shift ∧
    first = second.mapError (IllTyped.mapVars (Ty.redraw shift))

theorem redrawn_ok (type : Ty) : Redrawn (.ok type) (.ok type) :=
  ⟨id, Function.injective_id, rfl⟩

theorem Redrawn.eq_ok {type : Ty} {second : Except (IllTyped Term) Ty}
    (redrawn : Redrawn (.ok type) second) : second = .ok type := by
  obtain ⟨shift, -, same⟩ := redrawn
  cases second with
  | ok other => exact same.symm
  | error refusal => cases same

theorem Redrawn.eq_error {refusal : IllTyped Term} {second : Except (IllTyped Term) Ty}
    (redrawn : Redrawn (.error refusal) second) :
    ∃ other, second = .error other ∧ Redrawn (.error refusal) (.error other) := by
  obtain ⟨shift, distinct, same⟩ := redrawn
  cases second with
  | ok type => cases same
  | error other => exact ⟨other, rfl, shift, distinct, same⟩

/-- Refusals that differ by the numbers of drawn variables are numbered in the same way. -/
theorem Redrawn.renumber_eq {first second : Except (IllTyped Term) Ty}
    (redrawn : Redrawn first second) :
    first.mapError IllTyped.renumber = second.mapError IllTyped.renumber := by
  obtain ⟨shift, distinct, rfl⟩ := redrawn
  cases second with
  | ok type => rfl
  | error refusal =>
      simp only [Except.mapError, IllTyped.mapVars, IllTyped.renumber,
        UnificationFailure.renumber_mapVars (Ty.redraw_injective distinct)]

/-- They are reported in the same way. -/
theorem Redrawn.message_eq {first second : Except (IllTyped Term) Ty}
    (redrawn : Redrawn first second) :
    first.mapError IllTyped.message = second.mapError IllTyped.message := by
  obtain ⟨shift, distinct, rfl⟩ := redrawn
  cases second with
  | ok type => rfl
  | error refusal =>
      simp only [Except.mapError, IllTyped.mapVars, IllTyped.message, IllTyped.report,
        UnificationFailure.renumber_mapVars (Ty.redraw_injective distinct)]

/-- An application has the type, or is refused, as from a supply from which nothing has been
drawn. -/
theorem redrawn_application (fn arg : Term) {result argStart fnStart : Nat} {fnType argType : Ty}
    (result_lt : result < argStart) (arg_le : argStart + argType.vars.length ≤ fnStart) :
    Redrawn
      ((Ty.appliedAt result argStart fnStart fnType argType).mapError fun reason =>
        { fn, arg, fnType, argType, reason })
      ((Ty.applied .start fnType argType).mapError fun reason =>
        { fn, arg, fnType, argType, reason }) := by
  obtain ⟨shift, distinct, same⟩ := Ty.exists_appliedAt_eq fnType result_lt arg_le
  refine ⟨shift, distinct, ?_⟩
  rw [same]
  cases Ty.applied .start fnType argType <;> rfl

namespace Term

/-- What inference comes to for an application, by what it comes to for the parts. -/
theorem typeOf_app_eq {fn arg : Term} {fnType argType : Ty} (fn_typed : fn.typeOf = .ok fnType)
    (arg_typed : arg.typeOf = .ok argType) :
    (app fn arg).typeOf =
      (Ty.applied .start fnType argType).mapError fun reason =>
        { fn, arg, fnType, argType, reason } := by
  rw [typeOf, typeFrom_app fn_typed arg_typed]
  cases Ty.applied .start fnType argType <;> rfl

theorem typeOf_app_of_arg_error {fn arg : Term} {refusal : IllTyped Term}
    (refused : arg.typeOf = .error refusal) : (app fn arg).typeOf = .error refusal := by
  rw [typeOf] at refused
  simp [typeOf, typeFrom, refused, bind, Except.bind]

theorem typeOf_app_of_fn_error {fn arg : Term} {argType : Ty} {refusal : IllTyped Term}
    (arg_typed : arg.typeOf = .ok argType) (refused : fn.typeOf = .error refusal) :
    (app fn arg).typeOf = .error refusal := by
  rw [typeOf] at arg_typed refused
  simp [typeOf, typeFrom, arg_typed, refused, bind, Except.bind]

/-- Drawing all variables from another supply changes their numbers only. -/
theorem redrawn_typeFrom (supply : Supply) (term : Term) :
    Redrawn (term.typeFrom supply) term.typeOf := by
  induction term with
  | S => exact redrawn_ok _
  | K => exact redrawn_ok _
  | I => exact redrawn_ok _
  | app fn arg fn_ih arg_ih =>
      cases arg_ended : arg.typeFrom supply with
      | error refusal =>
          obtain ⟨other, refused, redrawn⟩ := (arg_ended ▸ arg_ih).eq_error
          rw [typeOf_app_of_arg_error refused]
          simpa [typeFrom, arg_ended, bind, Except.bind] using redrawn
      | ok argType =>
          have arg_typed := (arg_ended ▸ arg_ih).eq_ok
          cases fn_ended : fn.typeFrom supply with
          | error refusal =>
              obtain ⟨other, refused, redrawn⟩ := (fn_ended ▸ fn_ih).eq_error
              rw [typeOf_app_of_fn_error arg_typed refused]
              simpa [typeFrom, arg_ended, fn_ended, bind, Except.bind] using redrawn
          | ok fnType =>
              have fn_typed := (fn_ended ▸ fn_ih).eq_ok
              have redrawn := @redrawn_application fn arg supply.next (supply.next + 1)
                (supply.next + 1 + argType.vars.length) fnType argType (Nat.lt_succ_self _) le_rfl
              rw [← typeOf_app_eq fn_typed arg_typed, ← Ty.applied_eq_appliedAt] at redrawn
              rw [typeFrom_app fn_ended arg_ended]
              cases applied : Ty.applied supply fnType argType <;> rwa [applied] at redrawn

/-- The parts of a refused application have the types that it is refused with. -/
theorem parts_typed_of_refused {term : Term} {refusal : IllTyped Term}
    (refused : term.typeOf = .error refusal) :
    refusal.fn.typeOf = .ok refusal.fnType ∧ refusal.arg.typeOf = .ok refusal.argType ∧
      Ty.applied .start refusal.fnType refusal.argType = .error refusal.reason := by
  induction term with
  | S => cases refused
  | K => cases refused
  | I => cases refused
  | app fn arg fn_ih arg_ih =>
      cases arg_typed : arg.typeOf with
      | error other =>
          rw [typeOf_app_of_arg_error arg_typed] at refused
          exact arg_ih (arg_typed.trans refused)
      | ok argType =>
          cases fn_typed : fn.typeOf with
          | error other =>
              rw [typeOf_app_of_fn_error arg_typed fn_typed] at refused
              exact fn_ih (fn_typed.trans refused)
          | ok fnType =>
              rw [typeOf_app_eq fn_typed arg_typed] at refused
              cases applied : Ty.applied .start fnType argType with
              | ok type => cases applied ▸ refused
              | error reason =>
                  rw [applied] at refused
                  obtain rfl := Except.error.inj refused
                  exact ⟨fn_typed, arg_typed, applied⟩

/-- The variables of a type that has been found have canonical names. -/
theorem canonicalize_of_typeOf {term : Term} {type : Ty} (typed : term.typeOf = .ok type) :
    type.canonicalize = type := by
  have scheme_canonical {scheme : Ty} (found : scheme = type)
      (canonical : scheme.canonicalize = scheme) : type.canonicalize = type :=
    found ▸ canonical
  cases term with
  | S => exact scheme_canonical (Except.ok.inj typed) (by decide +kernel)
  | K => exact scheme_canonical (Except.ok.inj typed) (by decide +kernel)
  | I => exact scheme_canonical (Except.ok.inj typed) (by decide +kernel)
  | app fn arg =>
      cases arg_typed : arg.typeOf with
      | error other => cases (typeOf_app_of_arg_error arg_typed).symm.trans typed
      | ok argType =>
          cases fn_typed : fn.typeOf with
          | error other => cases (typeOf_app_of_fn_error arg_typed fn_typed).symm.trans typed
          | ok fnType =>
              rw [typeOf_app_eq fn_typed arg_typed, Ty.applied_eq] at typed
              split at typed
              · obtain rfl := Except.ok.inj typed
                exact Ty.canonicalize_canonicalize _
              · cases typed

/-- The names in a type that has been found may be written. -/
theorem written_of_typeOf {term : Term} {type : Ty} (typed : term.typeOf = .ok type) :
    type.Written :=
  canonicalize_of_typeOf typed ▸ Ty.written_canonicalize type

end Term

/-- A refusal tells drawn variables in its reason and no others, and no drawn ones in the types of
the two parts. -/
structure IllTyped.TellsDrawn (refusal : IllTyped Term) : Prop where
  /-- The variables of the reason are drawn. -/
  reason : ∀ name, refusal.reason.mentions name = true → ∃ number, Ty.drawnName number = name
  /-- The variables of the function's type are written. -/
  fnType : refusal.fnType.Written
  /-- The variables of the argument's type are written. -/
  argType : refusal.argType.Written

theorem tellsDrawn_of_refused {term : Term} {refusal : IllTyped Term}
    (refused : term.typeOf = .error refusal) : refusal.TellsDrawn := by
  obtain ⟨fn_typed, arg_typed, applied⟩ := Term.parts_typed_of_refused refused
  exact ⟨fun _ => Ty.exists_drawn_of_applied_error applied, Term.written_of_typeOf fn_typed,
    Term.written_of_typeOf arg_typed⟩

theorem Redrawn.tellsDrawn {refusal : IllTyped Term} {term : Term}
    (redrawn : Redrawn (.error refusal) term.typeOf) : refusal.TellsDrawn := by
  obtain ⟨other, refused, shift, -, same⟩ := redrawn.eq_error
  have tells := tellsDrawn_of_refused refused
  obtain rfl := Except.error.inj same
  refine ⟨fun name occurs => ?_, tells.fnType, tells.argType⟩
  cases reason_eq : other.reason with
  | cyclic => simp [IllTyped.mapVars, reason_eq, UnificationFailure.mapVars,
      UnificationFailure.mentions] at occurs
  | infinite bound type =>
      simp only [IllTyped.mapVars, reason_eq, UnificationFailure.mapVars,
        UnificationFailure.mentions, ← Ty.mapVars_var, ← Ty.mapVars_arrow] at occurs
      obtain ⟨origin, origin_occurs, moved⟩ := Ty.mentions_bind.mp occurs
      obtain ⟨number, rfl⟩ := tells.reason origin (by rw [reason_eq]; exact origin_occurs)
      rw [Ty.mentions, beq_iff_eq, Ty.redraw_drawnName] at moved
      exact ⟨shift number, moved⟩

/-- Two inferences find the same type, or both refuse: then the same application, for types without
drawn variables, and for reasons that say the same once the drawn variables in them, of which alone
they tell, are numbered in order of first appearance; that is how they are reported. -/
def SameButDrawn (first second : Except (IllTyped Term) Ty) : Prop :=
  (∀ type, first = .ok type ↔ second = .ok type) ∧
    ∀ refusal, first = .error refusal → ∃ other, second = .error other ∧
      refusal.renumber = other.renumber ∧ refusal.message = other.message ∧
        refusal.TellsDrawn ∧ other.TellsDrawn

/-- Inferences that differ from one on its own by the numbers of drawn variables are the same but
for these. -/
theorem Redrawn.sameButDrawn {term : Term} {first second : Except (IllTyped Term) Ty}
    (first_redrawn : Redrawn first term.typeOf) (second_redrawn : Redrawn second term.typeOf) :
    SameButDrawn first second := by
  have renumbered := first_redrawn.renumber_eq.trans second_redrawn.renumber_eq.symm
  have reported := first_redrawn.message_eq.trans second_redrawn.message_eq.symm
  cases first with
  | ok type =>
      cases second with
      | ok other =>
          obtain rfl := Except.ok.inj renumbered
          exact ⟨fun _ => Iff.rfl, fun _ refused => by cases refused⟩
      | error other => cases renumbered
  | error refusal =>
      cases second with
      | ok other => cases renumbered
      | error other =>
          refine ⟨fun type => by simp, fun _ refused => ?_⟩
          obtain rfl := Except.error.inj refused
          exact ⟨other, rfl, Except.error.inj renumbered, Except.error.inj reported,
            first_redrawn.tellsDrawn, second_redrawn.tellsDrawn⟩

namespace Ledger

/-- What an inference in a session comes to. -/
structure Infers (before : Ledger) (term : Term) (run : Except (IllTyped Term) Ty × Ledger) :
    Prop where
  /-- The outcome is that of an inference on its own. -/
  redrawn : Redrawn run.1 term.typeOf
  /-- What is remembered afterwards is right. -/
  faithful : run.2.Faithful
  /-- No variable is put back. -/
  advances : before.supply.next ≤ run.2.supply.next

theorem outcome_solve (fn arg : Term) (fnType argType : Ty) (result argStart fnStart : Nat)
    (ledger : Ledger) :
    (solve fn arg fnType argType (.var (Ty.drawnName result))
        (argType.relabel fun place => Ty.drawnName (argStart + place))
        (fnType.relabel fun place => Ty.drawnName (fnStart + place))).outcome ledger =
      ((Ty.appliedAt result argStart fnStart fnType argType).mapError fun reason =>
        { fn, arg, fnType, argType, reason }, ledger) := by
  rw [solve, Ty.appliedAt]
  cases Subst.empty.unify (fnType.relabel fun place => Ty.drawnName (fnStart + place))
    (.arrow (argType.relabel fun place => Ty.drawnName (argStart + place))
      (.var (Ty.drawnName result))) <;> rfl

/-- A type that is remembered after an inference is the right one. -/
theorem Infers.remember {before : Ledger} {term : Term}
    {computation : Inference Ty} (faithful : before.Faithful)
    (infers : before.Infers term (computation.outcome before)) :
    before.Infers term ((Memo.remember typeSlot term computation).outcome before) := by
  rw [Registry.outcome_remember]
  split
  · next type found => exact ⟨faithful term type found ▸ redrawn_ok type, faithful, le_rfl⟩
  · rcases ended : computation.outcome before with ⟨refusal | type, middle⟩ <;> rw [ended] at infers
    · exact infers
    · refine ⟨infers.redrawn, ?_, infers.advances⟩
      intro other otherType found
      simp only [typeSlot, Std.HashMap.getElem?_insert] at found
      split at found
      · next same =>
          obtain rfl := eq_of_beq same
          obtain rfl := Option.some.inj found
          exact infers.redrawn.eq_ok
      · exact infers.faithful other otherType found

/-- In any session that remembers the right types, inference has the outcome that it has on its own,
but for the numbers of drawn variables. -/
theorem infers_infer {ledger : Ledger} (faithful : ledger.Faithful) (term : Term) :
    ledger.Infers term ((infer term).outcome ledger) := by
  induction term generalizing ledger with
  | S => exact ⟨redrawn_ok _, faithful, le_rfl⟩
  | K => exact ⟨redrawn_ok _, faithful, le_rfl⟩
  | I => exact ⟨redrawn_ok _, faithful, le_rfl⟩
  | app fn arg fn_ih arg_ih =>
      refine .remember faithful ?_
      let drawn : Ledger := { ledger with supply := ⟨ledger.supply.next + 1⟩ }
      have result_drawn : (draw Supply.fresh).Returns ledger
          (Ty.var (Ty.drawnName ledger.supply.next)) drawn := rfl
      rw [result_drawn.outcome_bind, ExceptT.outcome_bind]
      have arg_infers := @arg_ih drawn faithful
      rcases arg_ended : (infer arg).outcome drawn with ⟨refusal | argType, argTyped⟩ <;>
        rw [arg_ended] at arg_infers
      · obtain ⟨other, refused, redrawn⟩ := arg_infers.redrawn.eq_error
        exact ⟨Term.typeOf_app_of_arg_error refused ▸ redrawn, arg_infers.faithful,
          (Nat.le_succ _).trans arg_infers.advances⟩
      have arg_typed := arg_infers.redrawn.eq_ok
      let copied : Ledger :=
        { argTyped with supply := ⟨argTyped.supply.next + argType.vars.length⟩ }
      have arg_copied : (draw (Supply.instantiate argType)).Returns argTyped
          (argType.relabel fun place => Ty.drawnName (argTyped.supply.next + place)) copied := rfl
      simp only
      rw [arg_copied.outcome_bind, ExceptT.outcome_bind]
      have fn_infers := @fn_ih copied arg_infers.faithful
      rcases fn_ended : (infer fn).outcome copied with ⟨refusal | fnType, fnTyped⟩ <;>
        rw [fn_ended] at fn_infers
      · obtain ⟨other, refused, redrawn⟩ := fn_infers.redrawn.eq_error
        exact ⟨Term.typeOf_app_of_fn_error arg_typed refused ▸ redrawn, fn_infers.faithful,
          by grind [arg_infers.advances, fn_infers.advances]⟩
      have fn_typed := fn_infers.redrawn.eq_ok
      let ended : Ledger := { fnTyped with supply := ⟨fnTyped.supply.next + fnType.vars.length⟩ }
      have fn_copied : (draw (Supply.instantiate fnType)).Returns fnTyped
          (fnType.relabel fun place => Ty.drawnName (fnTyped.supply.next + place)) ended := rfl
      simp only
      rw [fn_copied.outcome_bind, outcome_solve]
      refine ⟨?_, fn_infers.faithful, ?_⟩
      · rw [Term.typeOf_app_eq fn_typed arg_typed]
        exact redrawn_application fn arg arg_infers.advances fn_infers.advances
      · grind [arg_infers.advances, fn_infers.advances]

theorem Reached.faithful {ledger : Ledger} (reached : ledger.Reached) : ledger.Faithful := by
  induction reached with
  | start supply =>
      intro term type found
      simp [Ledger.start] at found
  | ask _ term ih => exact (infers_infer ih term).faithful
  | draw _ _ ih => exact ih

theorem Reached.redrawn {ledger : Ledger} (reached : ledger.Reached) (term : Term) :
    Redrawn (ledger.answer term) term.typeOf :=
  (infers_infer reached.faithful term).redrawn

end Ledger

/--
Results do not depend on which variables were drawn. Solving an equation under other names, from a
substitution without cycles, has the outcome of solving it, under these names: the bindings that are
found, or the variable that would be part of itself and its type. So any two sessions, with
different supplies and having typed different terms before, answer alike about every term, and so
does an inference that draws from any supply and remembers nothing: with the same type, or with the
same report, in which drawn variables are numbered in order of first appearance.
-/
theorem answers_independent_of_drawn_names :
    (∀ rename : String → String, Function.Injective rename →
      ∀ (subst : Subst) (left right : Ty), subst.Acyclic →
        (∀ after, subst.unify left right = .ok after →
          (subst.mapVars rename).unify (left.mapVars rename) (right.mapVars rename) =
            .ok (after.mapVars rename)) ∧
          ∀ failure, subst.unify left right = .error failure →
            ∃ name type, failure = .infinite name type ∧
              (subst.mapVars rename).unify (left.mapVars rename) (right.mapVars rename) =
                .error (.infinite (rename name) (type.mapVars rename))) ∧
      (∀ first second : Ledger, first.Reached → second.Reached → ∀ term : Term,
        SameButDrawn (first.answer term) (second.answer term)) ∧
        ∀ (ledger : Ledger) (supply : Supply), ledger.Reached → ∀ term : Term,
          SameButDrawn (ledger.answer term) (term.typeFrom supply) := by
  refine ⟨fun rename distinct subst left right acyclic => ⟨?_, ?_⟩, ?_, ?_⟩
  · intro after ok
    rw [Subst.unify_mapVars distinct, ok, Subst.outcomeUnder]
  · intro failure failed
    obtain ⟨_, _, _, name, type, rfl, -⟩ := acyclic.unify_failure failed
    refine ⟨name, type, rfl, ?_⟩
    rw [Subst.unify_mapVars distinct, failed, Subst.outcomeUnder, UnificationFailure.mapVars]
  · intro first second first_reached second_reached term
    exact (first_reached.redrawn term).sameButDrawn (second_reached.redrawn term)
  · intro ledger supply reached term
    exact (reached.redrawn term).sameButDrawn (term.redrawn_typeFrom supply)

/-- `a` is bound to `d -> d`, so `b -> d` and `a -> b` are refused for `d`; with other names, for
the other name of `d`. The term `S I I` is refused in a new session, and in the same way in one that
began further on and in which `K K` was typed and more variables were drawn. -/
theorem self_application_refused_alike :
    (Subst.unify ⟨[("ta", .arrow (.var "td") (.var "td"))]⟩ (.arrow (.var "tb") (.var "td"))
        (.arrow (.var "ta") (.var "tb")) =
      .error (.infinite "td" (.arrow (.var "td") (.var "td")))) ∧
      ∃ refusal other,
        (Ledger.start .start).answer (.app (.app .S .I) .I) = .error refusal ∧
          Ledger.answer
            { (Ledger.start ⟨5⟩).afterwards (.app .K .K) with
              supply := ⟨((Ledger.start ⟨5⟩).afterwards (.app .K .K)).supply.next + 7⟩ }
            (.app (.app .S .I) .I) = .error other ∧
          refusal.message = other.message := by
  obtain ⟨renamed, sessions, alone⟩ := answers_independent_of_drawn_names
  have distinct : Function.Injective fun name : String => "t" ++ name :=
    fun _ _ same => (String.append_right_inj "t").mp same
  have acyclic : Subst.Acyclic ⟨[("a", .arrow (.var "d") (.var "d"))]⟩ :=
    @Subst.Acyclic.insert Subst.empty "a" (.arrow (.var "d") (.var "d")) Subst.acyclic_empty rfl
      (by decide)
  constructor
  · obtain ⟨name, type, reason, refused⟩ := (renamed _ distinct _ (.arrow (.var "b") (.var "d"))
      (.arrow (.var "a") (.var "b")) acyclic).2 (.infinite "d" (.arrow (.var "d") (.var "d")))
      (by decide)
    obtain ⟨rfl, rfl⟩ := UnificationFailure.infinite.inj reason
    exact refused
  · have first_reached := Ledger.Reached.start .start
    have second_reached := ((Ledger.Reached.start ⟨5⟩).ask (.app .K .K)).draw 7
    have untyped : (Term.typeFrom .start (.app (.app .S .I) .I)).toOption = none := by
      decide +kernel
    cases first : (Ledger.start .start).answer (.app (.app .S .I) .I) with
    | ok type =>
        have typed := ((alone _ .start first_reached _).1 type).mp first
        simp [typed, Except.toOption] at untyped
    | error refusal =>
        obtain ⟨other, refused, -, same, -⟩ :=
          (sessions _ _ first_reached second_reached _).2 refusal first
        exact ⟨refusal, other, rfl, refused, same⟩

end Combinatory
