import Combinatory.Proofs.Lambda.Drafting
import Combinatory.Proofs.Lambda.InStep

/-!
# Evaluation in step

Expressions that are alike are evaluated to twins, and twins are read, written, applied and compiled
alike, in all sessions that are in step. So the names of parameters make no difference to the term
that a function is compiled to.
-/

namespace Combinatory
namespace Lambda

/-- Tasks that are alike are done in step. -/
structure PerformsInStep (perform : Task → Work Object) : Prop where
  /-- Expressions that are alike are evaluated to twins. -/
  evaluate : ∀ {pairs : Pairing} {names : List (String × String)} {scope surroundings : Scope}
    {expr other : Expr}, TwinScope pairs names scope surroundings → expr.Alike names other →
      StaysInStep pairs Twin (perform (.evaluate scope expr))
        (perform (.evaluate surroundings other))
  /-- Twins are read as expressions that are twins. -/
  read : ∀ {pairs : Pairing} {value other : Extra}, TwinExtra pairs value other →
    StaysInStep pairs TwinExpr (perform (.read value)) (perform (.read other))

section Tasks

variable {perform : Task → Work Object} {pairs : Pairing}

/-! ## Writing objects -/

theorem TwinExpr.stays_constructorForm {object other : Object}
    (twins : TwinExpr pairs object other) :
    StaysInStep pairs (fun _ _ _ => True) (constructorForm perform object)
      (constructorForm perform other) := by
  induction object generalizing pairs other with
  | term value =>
      cases twins
      exact stays_termForm value
  | var x =>
      cases twins
      exact .pure trivial
  | app serial fn arg fn_ih arg_ih =>
      cases twins with
      | app _ fns args _ =>
          exact (fn_ih fns).bind fun within _ =>
            (arg_ih (args.within within)).bind fun _ _ => .pure trivial
  | foreign value => cases twins

mutual

theorem Twin.stays_constructorForm (performs : PerformsInStep perform) {pairs : Pairing}
    {object other : Object} (twins : Twin pairs object other) :
    StaysInStep pairs (fun _ _ _ => True) (constructorForm perform object)
      (constructorForm perform other) := by
  cases twins with
  | expr twins => exact twins.stays_constructorForm
  | foreign twins => exact twins.stays_constructorForm performs
termination_by sizeOf object

theorem TwinExtra.stays_constructorForm (performs : PerformsInStep perform) {pairs : Pairing}
    {value other : Extra} (twins : TwinExtra pairs value other) :
    StaysInStep pairs (fun _ _ _ => True) (constructorFormOfExtra perform value)
      (constructorFormOfExtra perform other) := by
  cases twins with
  | function => exact .pure trivial
  | combinator number name? =>
      refine (performs.read (.combinator number name?)).bind fun _ read_twins => ?_
      cases read_twins with
      | term value => exact stays_termForm value
      | _ => exact .raise rfl
  | datum => exact .pure trivial
  | tuple serial twins =>
      refine (twins.stays_constructorForms performs).bind fun _ _ => ?_
      split <;> split <;> exact .pure trivial
  | noKeywords => exact .pure trivial
termination_by sizeOf value

theorem Twins.stays_constructorForms (performs : PerformsInStep perform) {pairs : Pairing}
    {objects others : List Object} (twins : Twins pairs objects others) :
    StaysInStep pairs (fun _ _ _ => True) (constructorForms perform objects)
      (constructorForms perform others) := by
  cases twins with
  | nil => exact .pure trivial
  | cons first rest =>
      exact (first.stays_constructorForm performs).bind fun within _ =>
        ((rest.within within).stays_constructorForms performs).bind fun _ _ => .pure trivial
termination_by sizeOf objects

end

theorem TwinExtra.stays_textOfExtra (performs : PerformsInStep perform) {value other : Extra}
    (twins : TwinExtra pairs value other) :
    StaysInStep pairs (fun _ _ _ => True) (textOfExtra perform value)
      (textOfExtra perform other) := by
  have formed := twins.stays_constructorForm performs
  cases twins with
  | combinator number name? =>
      cases name? with
      | none => exact .raise rfl
      | some name => exact .pure trivial
  | datum place value => exact .pure trivial
  | _ => exact formed

theorem TwinExpr.stays_text {object other : Object} (twins : TwinExpr pairs object other) :
    StaysInStep pairs (fun _ _ _ => True) (text perform object) (text perform other) := by
  induction object generalizing pairs other with
  | term value =>
      cases twins
      exact stays_termText value
  | var x =>
      cases twins
      exact .pure trivial
  | app serial fn arg fn_ih arg_ih =>
      cases twins with
      | app _ fns args _ =>
          exact (fn_ih fns).bind fun within _ =>
            (arg_ih (args.within within)).bind fun _ _ => .pure trivial
  | foreign value => cases twins

theorem Twin.stays_text (performs : PerformsInStep perform) {object other : Object}
    (twins : Twin pairs object other) :
    StaysInStep pairs (fun _ _ _ => True) (text perform object) (text perform other) := by
  cases twins with
  | expr twins => exact twins.stays_text
  | foreign twins => exact twins.stays_textOfExtra performs

/-! ## Putting expressions together -/

theorem TwinExpr.convert_eq {object other : Object} (twins : TwinExpr pairs object other) :
    (assembly perform).convert object = pure object ∧
      (assembly perform).convert other = pure other := by
  cases twins <;> exact ⟨rfl, rfl⟩

theorem TwinExpr.result?_eq {object other : Object} (twins : TwinExpr pairs object other) :
    (assembly perform).result? object = some object ∧
      (assembly perform).result? other = some other := by
  cases twins <;> exact ⟨rfl, rfl⟩

theorem Twin.stays_convert (performs : PerformsInStep perform) {object other : Object}
    (twins : Twin pairs object other) :
    StaysInStep pairs TwinExpr ((assembly perform).convert object)
      ((assembly perform).convert other) := by
  cases twins with
  | expr twins =>
      rw [twins.convert_eq.1, twins.convert_eq.2]
      exact .pure twins
  | foreign twins => exact performs.read twins

theorem TwinExpr.stays_join {fn arg other counterpart : Object} (fns : TwinExpr pairs fn other)
    (args : TwinExpr pairs arg counterpart) :
    StaysInStep pairs TwinExpr ((assembly perform).join fn arg)
      ((assembly perform).join other counterpart) := by
  rcases Assembly.join_cases fn arg with ⟨f, a, rfl, rfl⟩ | apart
  · cases fns
    cases args
    refine (stays_consult (Registry.applyTyped f a)).bind fun _ same => ?_
    rw [← same]
    exact .pure (.term _)
  · have other_apart : (other.isTerm && counterpart.isTerm) = false := by
      rw [fns.isTerm_eq, args.isTerm_eq, apart]
    rw [Assembly.join_apart _ apart, Assembly.join_apart _ other_apart]
    refine stays_nextSerial.bind fun within same => ?_
    rw [← same]
    exact .pure (.app _ (fns.within within) (args.within within) apart)

theorem stays_assemble (performs : PerformsInStep perform) {first other : Object}
    {rest others : List Object} (first_twins : Twin pairs first other)
    (rest_twins : Twins pairs rest others) :
    StaysInStep pairs TwinExpr ((assembly perform).app first rest)
      ((assembly perform).app other others) := by
  refine (first_twins.stays_convert performs).bind fun within converted => ?_
  refine (stays_mapM persistent_twin persistent_twinExpr (fun twins => twins.stays_convert performs)
    (twins_iff_forall₂.mp (rest_twins.within within))).bind fun further all => ?_
  exact stays_foldlM persistent_twinExpr (fun fns args => fns.stays_join args) all
    (converted.within further)

theorem stays_app (performs : PerformsInStep perform) {objects others : List Object}
    (twins : Twins pairs objects others) :
    StaysInStep pairs TwinExpr (app perform objects) (app perform others) := by
  cases twins with
  | nil => exact .raise rfl
  | cons first rest => exact stays_assemble performs first rest

/-! ## Abstraction -/

theorem TwinExpr.isVar_eq (apart : pairs.Apart) {x y : Var} (paired : pairs x y)
    {object other : Object} (twins : TwinExpr pairs object other) :
    other.isVar y = object.isVar x := by
  cases twins with
  | var related => simp only [Open.isVar, beq_eq_beq, apart.eq_iff related paired]
  | _ => rfl

theorem stays_distributed (performs : PerformsInStep perform) {fn arg other counterpart : Object}
    (fns : TwinExpr pairs fn other) (args : TwinExpr pairs arg counterpart) :
    StaysInStep pairs (fun more => Option.Rel (TwinExpr more))
      (do return some (← (assembly perform).app (.term .S) [fn, arg]))
      (do return some (← (assembly perform).app (.term .S) [other, counterpart])) :=
  (stays_assemble performs (.expr (.term .S)) (.cons (.expr fns) (.cons (.expr args) .nil))).bind
    fun _ twins => .pure (.some twins)

theorem stays_kept (performs : PerformsInStep perform) {object other : Object}
    (twins : Twin pairs object other) :
    StaysInStep pairs TwinExpr ((assembly perform).app (.term .K) [object])
      ((assembly perform).app (.term .K) [other]) :=
  stays_assemble performs (.expr (.term .K)) (.cons twins .nil)

theorem optionRel_within {more : Pairing} {found other : Option Object}
    (related : Option.Rel (TwinExpr pairs) found other) (within : pairs.Within more) :
    Option.Rel (TwinExpr more) found other := by
  cases related with
  | none => exact .none
  | some twins => exact .some (twins.within within)

theorem TwinExpr.stays_abstract? (performs : PerformsInStep perform) {x y : Var}
    (paired : pairs x y) {object other : Object} (twins : TwinExpr pairs object other) :
    StaysInStep pairs (fun more => Option.Rel (TwinExpr more))
      ((assembly perform).abstract? x object) ((assembly perform).abstract? y other) := by
  induction object generalizing pairs other with
  | term value =>
      cases twins
      exact .pure .none
  | var z =>
      cases twins with
      | var related =>
          refine .of_apart fun apart => ?_
          simp only [Assembly.abstract?, apart.eq_iff related paired]
          split
          · exact .pure (.some (.term .I))
          · exact .pure .none
  | foreign value => cases twins
  | app serial fn arg fn_ih arg_ih =>
      cases twins with
      | app _ fns args _ =>
          refine (fn_ih paired fns).bind fun first fn_related => ?_
          refine (arg_ih (first _ _ paired) (args.within first)).bind fun second arg_related => ?_
          have within := first.trans second
          replace fns := fns.within within
          replace args := args.within within
          replace fn_related := optionRel_within fn_related second
          cases fn_related with
          | none =>
              cases arg_related with
              | none => exact .pure .none
              | some arg_twins =>
                  refine .of_apart fun apart => ?_
                  simp only [args.isVar_eq apart (within _ _ paired), fns.result?_eq.1,
                    fns.result?_eq.2]
                  split
                  · exact .pure (.some fns)
                  · exact (stays_kept performs (.expr fns)).bind fun third kept =>
                      stays_distributed performs kept (arg_twins.within third)
          | some fn_twins =>
              cases arg_related with
              | none =>
                  exact (stays_kept performs (.expr args)).bind fun third kept =>
                    stays_distributed performs (fn_twins.within third) kept
              | some arg_twins => exact stays_distributed performs fn_twins arg_twins

theorem Twin.stays_abstract? (performs : PerformsInStep perform) {x y : Var} (paired : pairs x y)
    {object other : Object} (twins : Twin pairs object other) :
    StaysInStep pairs (fun more => Option.Rel (TwinExpr more))
      ((assembly perform).abstract? x object) ((assembly perform).abstract? y other) := by
  cases twins with
  | expr twins => exact twins.stays_abstract? performs paired
  | foreign => exact .pure .none

theorem stays_note (performs : PerformsInStep perform) (x y : Var)
    {body other abstraction counterpart : Object} (bodies : Twin pairs body other)
    (abstractions : TwinExpr pairs abstraction counterpart) :
    StaysInStep pairs TwinExpr
      (do (assembly perform).note x body abstraction; return abstraction)
      (do (assembly perform).note y other counterpart; return counterpart) := by
  simp only [assembly, bind_assoc]
  exact (bodies.stays_text performs).bind fun first _ =>
    (abstractions.within first).stays_text.bind fun second _ =>
      (stays_log _ _).bind fun third _ =>
        .pure (abstractions.within ((first.trans second).trans third))

theorem Twin.stays_abstract (performs : PerformsInStep perform) {x y : Var} (paired : pairs x y)
    {body other : Object} (bodies : Twin pairs body other) :
    StaysInStep pairs TwinExpr ((assembly perform).abstract x body)
      ((assembly perform).abstract y other) := by
  refine (bodies.stays_abstract? performs paired).bind fun first related => ?_
  have later_bodies := bodies.within first
  cases related with
  | some twins => exact stays_note performs x y later_bodies twins
  | none =>
      exact (stays_kept performs later_bodies).bind fun second kept =>
        stays_note performs x y (later_bodies.within second) kept

/-- The two lists have variables that stand for each other. -/
abbrev PairedVars (pairs : Pairing) : List Var → List Var → Prop :=
  List.Forall₂ pairs

theorem stays_abstractAll (performs : PerformsInStep perform) {xs ys : List Var}
    (paired : PairedVars pairs xs ys) {body other : Object} (bodies : TwinExpr pairs body other) :
    StaysInStep pairs TwinExpr ((assembly perform).abstractAll xs body)
      ((assembly perform).abstractAll ys other) :=
  stays_foldlM persistent_paired
    (fun twins paired => (Twin.expr twins).stays_abstract performs paired)
    (List.rel_reverse paired) bodies

/-! ## Functions -/

theorem stays_newVars {R : Object → Object → Prop}
    {parameters counterparts : List (Parameter Object)}
    (alike : List.Forall₂ (Parameter.Alike R) parameters counterparts) :
    StaysInStep pairs PairedVars (parameters.mapM fun parameter => newVar parameter.name)
      (counterparts.mapM fun parameter => newVar parameter.name) :=
  stays_mapM (R := fun _ => Parameter.Alike R) (fun _ _ _ _ _ => id) persistent_paired
    (fun _ => stays_newVar _ _) alike

theorem twins_vars {xs ys : List Var} (paired : PairedVars pairs xs ys) :
    Twins pairs (xs.map .var) (ys.map .var) := by
  rw [twins_iff_forall₂, List.forall₂_map_left_iff, List.forall₂_map_right_iff]
  exact paired.imp fun _ _ related => .expr (.var related)

theorem stays_callFunction (performs : PerformsInStep perform) {signature other : Signature Object}
    {body counterpart : Expr} {scope surroundings : Scope} {names : List (String × String)}
    (signatures : TwinSignature pairs signature other)
    (bodies : body.Alike (signature.names.zip other.names ++ names) counterpart)
    (scopes : TwinScope pairs names scope surroundings) {args others : List Object}
    (twins : Twins pairs args others) :
    StaysInStep pairs Twin (callFunction perform signature body scope args)
      (callFunction perform other counterpart surroundings others) := by
  refine stays_nextSerial.bind fun {_ serial _} within same => ?_
  rw [← same]
  have related := (signatures.within within).bind? serial (twins.within within)
  generalize signature.bind? _ _ args = bound at related ⊢
  generalize other.bind? _ _ others = counterpart_bound at related ⊢
  cases related with
  | none => exact .raise rfl
  | some bound_twins =>
      exact performs.evaluate (bound_twins.append (scopes.within within)) bodies

/-- The body of a function as an expression in new variables for the parameters. -/
def openFunction (perform : Task → Work Object) (signature : Signature Object) (body : Expr)
    (scope : Scope) : Work (List Var × Object) := do
  if !signature.isCompilable then Effect.raise (.unsupportedSignature "<function>")
  else
    let xs ← signature.positional.mapM fun parameter => newVar parameter.name
    let result ← callFunction perform signature body scope (xs.map .var)
    return (xs, ← (assembly perform).convert result)

/-- The elimination of the parameters from the body of a function. -/
def closeFunction (perform : Task → Work Object) (name : String) (xs : List Var) (expr : Object) :
    Work Object := do
  let args := Datum.tuple (xs.map fun x => .literal (.text x.name))
  log ("compiling " ++ name ++ args.quoted ++ " = " ++ (← text perform expr))
  (assembly perform).abstractAll xs expr

/-- A function is compiled by opening it and eliminating its parameters. -/
theorem compileFunction_eq (name : String) (signature : Signature Object) (body : Expr)
    (scope : Scope) : compileFunction perform name signature body scope =
      openFunction perform signature body scope >>= fun (xs, expr) =>
        closeFunction perform name xs expr := by
  unfold compileFunction openFunction closeFunction
  split
  · rfl
  · simp only [bind_assoc, pure_bind]

theorem stays_openFunction (performs : PerformsInStep perform) {signature other : Signature Object}
    {body counterpart : Expr} {scope surroundings : Scope} {names : List (String × String)}
    (signatures : TwinSignature pairs signature other)
    (bodies : body.Alike (signature.names.zip other.names ++ names) counterpart)
    (scopes : TwinScope pairs names scope surroundings) :
    StaysInStep pairs
      (fun more opened twin => PairedVars more opened.1 twin.1 ∧ TwinExpr more opened.2 twin.2)
      (openFunction perform signature body scope)
      (openFunction perform other counterpart surroundings) := by
  unfold openFunction
  have alike := twinSignature_iff_alike.mp signatures
  rw [alike.isCompilable_eq]
  split
  · exact .raise trivial
  · refine (stays_newVars alike.positional).bind fun first paired => ?_
    refine (stays_callFunction performs (signatures.within first) bodies (scopes.within first)
      (twins_vars paired)).bind fun second result_twins => ?_
    refine (result_twins.stays_convert performs).bind fun third twins => ?_
    exact .pure ⟨paired.imp fun _ _ => (second.trans third) _ _, twins⟩

theorem stays_closeFunction (performs : PerformsInStep perform) (name : String) {xs ys : List Var}
    (paired : PairedVars pairs xs ys) {expr other : Object} (twins : TwinExpr pairs expr other) :
    StaysInStep pairs TwinExpr (closeFunction perform name xs expr)
      (closeFunction perform name ys other) := by
  refine twins.stays_text.bind fun first _ => (stays_log _ _).bind fun second _ => ?_
  have within := first.trans second
  exact stays_abstractAll performs (paired.imp fun _ _ => within _ _) (twins.within within)

theorem stays_compileFunction (performs : PerformsInStep perform) (name : String)
    {signature other : Signature Object} {body counterpart : Expr} {scope surroundings : Scope}
    {names : List (String × String)} (signatures : TwinSignature pairs signature other)
    (bodies : body.Alike (signature.names.zip other.names ++ names) counterpart)
    (scopes : TwinScope pairs names scope surroundings) :
    StaysInStep pairs TwinExpr (compileFunction perform name signature body scope)
      (compileFunction perform name other counterpart surroundings) := by
  rw [compileFunction_eq, compileFunction_eq]
  exact (stays_openFunction performs signatures bodies scopes).bind fun _ opened =>
    stays_closeFunction performs name opened.1 opened.2

theorem TwinExpr.freeVars {object other : Object} (twins : TwinExpr pairs object other) :
    ∃ xs ys, object.freeVars = .ok xs ∧ other.freeVars = .ok ys := by
  induction twins with
  | term => exact ⟨[], [], rfl, rfl⟩
  | @var x y _ => exact ⟨[x], [y], rfl, rfl⟩
  | app _ _ _ _ fn_ih arg_ih =>
      obtain ⟨fnVars, otherVars, fn_eq, other_eq⟩ := fn_ih
      obtain ⟨argVars, counterpartVars, arg_eq, counterpart_eq⟩ := arg_ih
      simp only [Open.freeVars, fn_eq, other_eq, arg_eq, counterpart_eq]
      exact ⟨_, _, rfl, rfl⟩

theorem Twin.stays_freeVars {object other : Object} (twins : Twin pairs object other) :
    StaysInStep pairs (fun _ _ _ => True) (freeVars object) (freeVars other) := by
  cases twins with
  | expr twins =>
      obtain ⟨xs, ys, object_eq, other_eq⟩ := twins.freeVars
      rw [Lambda.freeVars, Lambda.freeVars, object_eq, other_eq]
      exact .pure trivial
  | foreign twins => exact .raise twins

theorem TwinExpr.stays_close {object other : Object} (twins : TwinExpr pairs object other) :
    StaysInStep pairs (fun _ => Eq) (close object) (close other) := by
  have listed := (Twin.expr twins).stays_freeVars
  cases twins with
  | term value => exact .pure rfl
  | _ => exact listed.bind fun _ _ => .raise trivial

theorem Twin.stays_compile (performs : PerformsInStep perform) {object other : Object}
    (twins : Twin pairs object other) :
    StaysInStep pairs (fun _ => Eq) (compile perform object) (compile perform other) := by
  have written := twins.stays_text performs
  cases twins with
  | expr twins =>
      cases twins with
      | _ => exact written.bind fun _ _ => .raise trivial
  | foreign twins =>
      cases twins with
      | function serial name signatures bodies scopes =>
          exact (stays_compileFunction performs name signatures bodies scopes).bind
            fun _ twins => twins.stays_close
      | combinator => exact written.bind fun _ _ => .raise trivial
      | _ => exact .raise rfl

/-! ## Combinators -/

theorem TwinCombinator.begun {combinator other : Combinator}
    (twins : TwinCombinator pairs combinator other) :
    TwinCombinator pairs combinator.begun other.begun :=
  { twins with compiling_eq := rfl }

theorem TwinCombinator.abandoned {combinator other : Combinator}
    (twins : TwinCombinator pairs combinator other) :
    TwinCombinator pairs combinator.abandoned other.abandoned :=
  { twins with compiling_eq := rfl }

theorem TwinCombinator.completed (value : TypedTerm) {combinator other : Combinator}
    (twins : TwinCombinator pairs combinator other) :
    TwinCombinator pairs (combinator.completed value) (other.completed value) :=
  { twins with compiling_eq := rfl, term_eq := rfl }

/-- The failure that refuses a combinator is about its name only. -/
theorem Failure.Alike.refusal {combinator other : Combinator}
    (name_eq : other.name? = combinator.name?) :
    Failure.Alike pairs combinator.refusal other.refusal := by
  rw [Combinator.refusal, Combinator.refusal, name_eq]
  cases combinator.name? <;> rfl

/-- Combinators are found in both sessions or in neither. -/
theorem Workbench.InStep.found {bench other : Workbench} (in_step : bench.InStep pairs other)
    (number : Nat) :
    (bench.combinators[number]? = none ∧ other.combinators[number]? = none) ∨
      ∃ combinator counterpart, bench.combinators[number]? = some combinator ∧
        other.combinators[number]? = some counterpart ∧
          TwinCombinator pairs combinator counterpart := by
  have related := in_step.combinators number
  generalize bench.combinators[number]? = combinator? at related ⊢
  generalize other.combinators[number]? = counterpart? at related ⊢
  cases related with
  | none => exact .inl ⟨rfl, rfl⟩
  | some twins => exact .inr ⟨_, _, rfl, rfl, twins⟩

/-- The compilation of what twins wrap ends alike, also for those who wait for its term. -/
theorem TwinCombinator.ends_termOf_idle (performs : PerformsInStep perform)
    {combinator counterpart : Combinator} (twins : TwinCombinator pairs combinator counterpart)
    {bench other : Workbench} (in_step : bench.InStep pairs other) {number : Nat}
    (found : bench.combinators[number]? = some combinator)
    (other_found : other.combinators[number]? = some counterpart)
    (unkept : combinator.term? = none) (idle : combinator.compiling = false) :
    EndAlike pairs (fun _ => Eq) ((termOf perform number).outcome bench)
      ((termOf perform number).outcome other) := by
  rw [outcome_termOf_idle found unkept idle, outcome_termOf_idle other_found
    (twins.term_eq.trans unkept) (twins.compiling_eq.trans idle)]
  have begun := in_step.changed number TwinCombinator.begun
  have ended := twins.source.stays_compile performs _ _ begun
  generalize (compile perform combinator.source).outcome _ = outcome at ended ⊢
  generalize (compile perform counterpart.source).outcome _ = twin at ended ⊢
  cases ended with
  | returned within in_step same =>
      subst same
      exact .returned within (in_step.changed number (TwinCombinator.completed _)) rfl
  | raised within in_step alike =>
      exact .raised within (in_step.changed number TwinCombinator.abandoned) alike
  | unfinished within in_step =>
      exact .unfinished within (in_step.changed number TwinCombinator.abandoned)

/-- Asking for the term of a combinator keeps sessions in step. -/
theorem stays_termOf (performs : PerformsInStep perform) (number : Nat) :
    StaysInStep pairs (fun _ => Eq) (termOf perform number) (termOf perform number) := by
  intro bench other in_step
  obtain ⟨absent, other_absent⟩ | ⟨combinator, counterpart, found, other_found, twins⟩ :=
    in_step.found number
  · rw [outcome_termOf_absent absent, outcome_termOf_absent other_absent]
    exact .raised (.refl pairs) in_step rfl
  · cases kept : combinator.term? with
    | some value =>
        rw [outcome_termOf_kept found kept,
          outcome_termOf_kept other_found (twins.term_eq.trans kept)]
        exact .returned (.refl pairs) in_step rfl
    | none =>
        cases mark : combinator.compiling with
        | true =>
            rw [outcome_termOf_compiling found kept mark, outcome_termOf_compiling other_found
              (twins.term_eq.trans kept) (twins.compiling_eq.trans mark)]
            exact .raised (.refl pairs) in_step (.refusal twins.name_eq)
        | false => exact twins.ends_termOf_idle performs in_step found other_found kept mark

theorem stays_termOf_object (performs : PerformsInStep perform) (number : Nat) :
    StaysInStep pairs TwinExpr (do return .term (← termOf perform number))
      (do return .term (← termOf perform number)) := by
  refine (stays_termOf performs number).bind fun _ same => ?_
  rw [← same]
  exact .pure (.term _)

theorem Workbench.InStep.wrapped {bench other : Workbench} (in_step : bench.InStep pairs other)
    {source counterpart : Object} (twins : Twin pairs source counterpart)
    (name? : Option String) :
    Workbench.InStep pairs
      { bench with
        combinators := bench.combinators.push { source, name?, compiling := false, term? := none } }
      { other with
        combinators := other.combinators.push
          { source := counterpart, name?, compiling := false, term? := none } } := by
  refine { in_step with size_eq := ?_, combinators := fun number => ?_ }
  · rw [Array.size_push, Array.size_push, in_step.size_eq]
  · rw [Array.getElem?_push, Array.getElem?_push, in_step.size_eq]
    split
    · exact .some ⟨twins, rfl, rfl, rfl⟩
    · exact in_step.combinators number

theorem stays_add {object other : Object} (twins : Twin pairs object other)
    (name? : Option String) :
    StaysInStep pairs Twin (wrap.add object name?) (wrap.add other name?) := by
  intro bench counterpart in_step
  have added : (wrap.add other name?).outcome counterpart =
      (.ok (.foreign (.combinator bench.combinators.size name?)),
        { counterpart with
          combinators := counterpart.combinators.push
            { source := other, name?, compiling := false, term? := none } }) := by
    rw [← in_step.size_eq]
    rfl
  rw [added]
  exact .returned (.refl pairs) (in_step.wrapped twins name?) (.foreign (.combinator _ name?))

theorem Twin.stays_wrap (performs : PerformsInStep perform) {object other : Object}
    (twins : Twin pairs object other) :
    StaysInStep pairs Twin (wrap perform object) (wrap perform other) := by
  have added := stays_add twins
  cases twins with
  | expr twins =>
      cases twins with
      | _ => exact added none
  | foreign twins =>
      have written := twins.stays_textOfExtra performs
      cases twins with
      | combinator number name? => exact .pure (.foreign (.combinator number name?))
      | function serial name => exact added (some name)
      | _ => exact written.bind fun _ _ => .raise trivial

/-! ## Forms -/

theorem TwinExtra.stays_readExtra (performs : PerformsInStep perform) {value other : Extra}
    (twins : TwinExtra pairs value other) :
    StaysInStep pairs TwinExpr (readExtra perform value) (readExtra perform other) := by
  have formed := twins.stays_constructorForm performs
  cases twins with
  | function serial name signatures bodies scopes =>
      exact stays_compileFunction performs name signatures bodies scopes
  | combinator number => exact stays_termOf_object performs number
  | _ => exact formed.bind fun _ _ => .raise trivial

theorem StaysInStep.twin {work other : Work Object}
    (stays : StaysInStep pairs TwinExpr work other) :
    StaysInStep pairs Twin work other :=
  stays.imp fun _ twins => .expr twins

theorem stays_call (performs : PerformsInStep perform) {callee other : Object}
    (callees : Twin pairs callee other) {args others : List Object}
    (twins : Twins pairs args others) :
    StaysInStep pairs Twin (call perform callee args) (call perform other others) := by
  cases callees with
  | expr callees =>
      have applied := (stays_app performs (.cons (.expr callees) twins)).twin
      cases callees <;> exact applied
  | foreign callees =>
      cases callees with
      | function serial name signatures bodies scopes =>
          exact stays_callFunction performs signatures bodies scopes twins
      | combinator number =>
          refine (stays_termOf performs number).bind fun within same => ?_
          rw [← same]
          exact (stays_app performs (.cons (.expr (.term _)) (twins.within within))).twin
      | _ => exact .raise rfl

theorem Twin.isApplicative_eq {object other : Object} (twins : Twin pairs object other) :
    isApplicative other = isApplicative object := by
  cases twins with
  | expr twins => cases twins <;> rfl
  | foreign twins => cases twins <;> rfl

theorem Twin.isTerm_eq {object other : Object} (twins : Twin pairs object other) :
    other.isTerm = object.isTerm := by
  cases twins with
  | expr twins => exact twins.isTerm_eq
  | foreign => rfl

theorem Twin.eq_term {value : TypedTerm} {other : Object} (twins : Twin pairs (.term value) other) :
    other = .term value := by
  cases twins with
  | expr twins =>
      cases twins
      rfl

theorem stays_infixApp (performs : PerformsInStep perform) {fn arg other counterpart : Object}
    (fns : Twin pairs fn other) (args : Twin pairs arg counterpart) :
    StaysInStep pairs Twin (infixApp perform fn arg) (infixApp perform other counterpart) := by
  have applied := (stays_app performs (.cons fns (.cons args .nil))).twin
  rcases Assembly.join_cases fn arg with ⟨f, a, rfl, rfl⟩ | apart
  · obtain rfl := fns.eq_term
    obtain rfl := args.eq_term
    exact applied
  · have other_apart : (other.isTerm && counterpart.isTerm) = false := by
      rw [fns.isTerm_eq, args.isTerm_eq, apart]
    rw [infixApp_apart apart, infixApp_apart other_apart, fns.isApplicative_eq,
      args.isApplicative_eq]
    split
    · exact applied
    · exact .raise rfl

/-- Something other than a variable cannot be abstracted, and is reported. -/
theorem stays_performAbstract (performs : PerformsInStep perform) {objects others : List Object}
    (twins : Twins pairs objects others) :
    StaysInStep pairs Twin (performForm perform .abstract objects)
      (performForm perform .abstract others) := by
  rcases twins with _ | ⟨first, _ | ⟨second, _ | _⟩⟩
  · exact .raise rfl
  · rcases first with ⟨⟨⟩⟩ | _ <;> exact .raise rfl
  · cases first with
    | expr twins =>
        have first : Twin _ _ _ := .expr twins
        cases twins with
        | var paired => exact (second.stays_abstract performs paired).twin
        | _ => exact .raise first
    | foreign twins => exact .raise (Twin.foreign twins)
  · rcases first with ⟨⟨⟩⟩ | _ <;> exact .raise rfl

/-- Only combinators have terms. -/
theorem stays_performTerm (performs : PerformsInStep perform) {objects others : List Object}
    (twins : Twins pairs objects others) :
    StaysInStep pairs Twin (performForm perform .term objects)
      (performForm perform .term others) := by
  rcases twins with _ | ⟨first, _ | _⟩
  · exact .raise rfl
  · cases first with
    | expr twins => cases twins <;> exact .raise rfl
    | foreign twins =>
        cases twins with
        | combinator number => exact (stays_termOf_object performs number).twin
        | _ => exact .raise rfl
  · simp only [performForm]
    exact .raise rfl

theorem stays_performForm (performs : PerformsInStep perform) {kind : Form}
    (joins : kind ≠ .rawApp) {objects others : List Object} (twins : Twins pairs objects others) :
    StaysInStep pairs Twin (performForm perform kind objects)
      (performForm perform kind others) := by
  cases kind with
  | app => exact (stays_app performs twins).twin
  | call =>
      cases twins with
      | nil => exact .raise rfl
      | cons first rest => exact stays_call performs first rest
  | infixApp =>
      rcases twins with _ | ⟨first, _ | ⟨second, _ | _⟩⟩
      · exact .raise rfl
      · exact .raise rfl
      · exact stays_infixApp performs first second
      · exact .raise rfl
  | rawApp => exact absurd rfl joins
  | asExpr =>
      rcases twins with _ | ⟨first, _ | _⟩
      · exact .raise rfl
      · exact (first.stays_convert performs).twin
      · exact .raise rfl
  | abstract => exact stays_performAbstract performs twins
  | combinator =>
      rcases twins with _ | ⟨first, _ | _⟩
      · exact .raise rfl
      · exact first.stays_wrap performs
      · exact .raise rfl
  | term => exact stays_performTerm performs twins

/-! ## Evaluation -/

theorem stays_lookup (name : String) :
    StaysInStep pairs Twin (lookup name) (lookup name) := by
  intro bench other in_step
  have same : SameName (bench.session.map fun entry => (entry.1, entry.1)) name name := by
    refine sameName_refl (fun pair mem => ?_) name
    obtain ⟨entry, -, rfl⟩ := List.mem_map.mp mem
    rfl
  have found := in_step.session.lookup same
  simp only [lookup, ExceptT.outcome_bind, ExceptT.outcome_get]
  rcases found with ⟨object, counterpart, found, other_found, twins⟩ | ⟨absent, other_absent, -⟩
  · rw [found, other_found]
    exact .returned (.refl pairs) in_step twins
  · rw [absent, other_absent]
    dsimp only
    split
    · exact .returned (.refl pairs) in_step (.expr (.term .S))
    · exact .returned (.refl pairs) in_step (.expr (.term .K))
    · exact .returned (.refl pairs) in_step (.expr (.term .I))
    · exact .raised (.refl pairs) in_step rfl

theorem stays_libraryTerm (name : Datum) :
    StaysInStep pairs Twin (libraryTerm name) (libraryTerm name) := by
  rw [libraryTerm]
  split
  · split
    · exact .pure (.expr (.term _))
    · exact .raise rfl
  · exact .raise rfl

theorem stays_evaluateAll (performs : PerformsInStep perform) {names : List (String × String)}
    {scope surroundings : Scope} (scopes : TwinScope pairs names scope surroundings)
    {exprs others : List Expr} (alike : Expr.AllAlike names exprs others) :
    StaysInStep pairs Twins (exprs.mapM fun part => perform (.evaluate scope part))
      (others.mapM fun part => perform (.evaluate surroundings part)) := by
  induction exprs generalizing pairs others with
  | nil =>
      cases alike
      exact .pure .nil
  | cons expr exprs ih =>
      cases alike with
      | cons first rest =>
          rw [List.mapM_cons, List.mapM_cons]
          refine (performs.evaluate scopes first).bind fun within twins => ?_
          refine (ih (scopes.within within) rest).bind fun further all => ?_
          exact .pure (.cons (twins.within further) all)

theorem stays_evaluateExpr (performs : PerformsInStep perform) {names : List (String × String)}
    {scope surroundings : Scope} (scopes : TwinScope pairs names scope surroundings)
    {expr other : Expr} (alike : expr.Alike names other) :
    StaysInStep pairs Twin (evaluateExpr perform scope expr)
      (evaluateExpr perform surroundings other) := by
  cases alike with
  | name same =>
      rw [evaluateExpr, evaluateExpr]
      rcases scopes.lookup same with ⟨object, counterpart, found, other_found, twins⟩ |
        ⟨absent, other_absent, rfl⟩
      · rw [found, other_found]
        exact .pure twins
      · rw [absent, other_absent]
        exact stays_lookup _
  | newVar _ name other =>
      exact (stays_newVar name other).bind fun _ paired => .pure (.expr (.var paired))
  | library _ name => exact stays_libraryTerm name
  | datum _ place value => exact .pure (.foreign (.datum place value))
  | function name signatures bodies =>
      refine stays_nextSerial.bind fun within same => ?_
      rw [← same]
      refine .pure (.foreign (.function _ name signatures.twins ?_ (scopes.within within)))
      rwa [Signature.names_map, Signature.names_map]
  | form joins all =>
      exact (stays_evaluateAll performs scopes all).bind fun _ twins =>
        stays_performForm performs joins twins

end Tasks

/-- Tasks that are alike are done in step, however many steps they are granted. -/
theorem performs_in_step (steps : Nat) : PerformsInStep (perform steps) := by
  induction steps with
  | zero =>
      exact ⟨fun _ _ _ _ in_step => .unfinished (.refl _) in_step,
        fun _ _ _ in_step => .unfinished (.refl _) in_step⟩
  | succ steps ih =>
      exact ⟨fun scopes alike => stays_evaluateExpr ih scopes alike,
        fun twins => twins.stays_readExtra ih⟩

end Lambda
end Combinatory
