import Combinatory.Proofs.Lambda.Hygiene

/-!
# Functions that are refused

A function that takes arguments left over, or has a default value for an argument that it takes by
position, is refused before anything is done with it. This ends whatever it was compiled for: its
error is never replaced by another one and never turned into a result. So what an unsupported
function might be compiled to is of no consequence. To say this, work is done with another compiler
in place of the one that refuses such functions: unless the refusal ends the work, it does not make
any difference.

A default value for an argument that is taken by keyword only is not looked at.
-/

namespace Combinatory
namespace Lambda

/-! ## Signatures -/

/-- Arguments left over are collected, or an argument taken by position may be left out. -/
def Signature.Unsupported {α : Type} (signature : Signature α) : Prop :=
  signature.rest?.isSome ∨ signature.keywords?.isSome ∨
    ∃ parameter ∈ signature.positional, parameter.hasDefault

theorem Signature.isCompilable_eq_false_iff {α : Type} {signature : Signature α} :
    signature.isCompilable = false ↔ signature.Unsupported := by
  rw [isCompilable, Unsupported]
  cases signature.rest? <;> cases signature.keywords? <;> simp

/-- The error with which an unsupported function is refused. -/
def refusal : Interruption Failure :=
  .raised (.unsupportedSignature "<function>")

/-! ## Another compiler -/

/-- What makes an expression of a function, given by its name, signature, body and scope. -/
abbrev Compiler := String → Signature Object → Expr → Scope → Work Object

section Compiler

variable (compiler : Compiler) (perform : Task → Work Object)

/-- Compile an object to a term, where functions are compiled by another compiler. -/
def compileBy : Object → Work TypedTerm
  | .foreign (.function _ name signature body scope) => do
      close (← compiler name signature body scope)
  | object => compile perform object

/-- The term of a combinator, where functions are compiled by another compiler. -/
def termOfBy (number : Nat) : Work TypedTerm := do
  match (← get).combinators[number]? with
  | none => Effect.raise .noAttribute
  | some combinator =>
      match combinator.term? with
      | some term => return term
      | none =>
          if combinator.compiling then Effect.raise combinator.refusal
          else
            changeCombinator number .begun
            let term ←
              tryCatch (compileBy compiler perform combinator.source) fun interruption => do
                changeCombinator number .abandoned
                throw interruption
            changeCombinator number (.completed term)
            return term

/-- Read an object as an expression, where functions are compiled by another compiler. -/
def readExtraBy : Extra → Work Object
  | .function _ name signature body scope => compiler name signature body scope
  | .combinator number _ => do return .term (← termOfBy compiler perform number)
  | value => readExtra perform value

/-- Call an object, where functions are compiled by another compiler. -/
def callBy (callee : Object) (args : List Object) : Work Object :=
  match callee with
  | .foreign (.combinator number _) => do
      app perform (.term (← termOfBy compiler perform number) :: args)
  | callee => call perform callee args

/-- What a form makes of objects, where functions are compiled by another compiler. -/
def performFormBy : Form → List Object → Work Object
  | .call, callee :: args => callBy compiler perform callee args
  | .term, [.foreign (.combinator number _)] => do
      return .term (← termOfBy compiler perform number)
  | form, objects => performForm perform form objects

/-- The object of an expression, where functions are compiled by another compiler. -/
def evaluateExprBy (scope : Scope) : Expr → Work Object
  | .form form parts => do
      let objects ← parts.mapM fun part => perform (.evaluate scope part)
      performFormBy compiler perform form objects
  | expr => evaluateExpr perform scope expr

end Compiler

/-- Do a task, where functions are compiled by a compiler that is given the tasks it may go on
with. -/
def performBy (compilerFor : (Task → Work Object) → Compiler) : Nat → Task → Work Object
  | 0, _ => throw .unfinished
  | steps + 1, .evaluate scope expr =>
      let perform := performBy compilerFor steps
      evaluateExprBy (compilerFor perform) perform scope expr
  | steps + 1, .read value =>
      let perform := performBy compilerFor steps
      readExtraBy (compilerFor perform) perform value

/-- Compile functions as always, but do something else instead of refusing one. -/
def compileFunctionOr (instead : Compiler) (perform : Task → Work Object) : Compiler :=
  fun name signature body scope =>
    if signature.isCompilable then compileFunction perform name signature body scope
    else instead name signature body scope

/-! ## Work with two compilers -/

section Agreement

open ExceptT (AgreesUnless)

variable {stop : Interruption Failure} {perform other : Task → Work Object}

mutual

theorem agrees_constructorForm (performs : ∀ task, AgreesUnless stop (perform task) (other task))
    (object : Object) :
    AgreesUnless stop (constructorForm perform object) (constructorForm other object) := by
  cases object with
  | app serial fn arg =>
      exact (agrees_constructorForm performs fn).bind fun _ =>
        (agrees_constructorForm performs arg).bind fun _ => .refl _
  | foreign value => exact agrees_constructorFormOfExtra performs value
  | _ => exact .refl _

theorem agrees_constructorFormOfExtra
    (performs : ∀ task, AgreesUnless stop (perform task) (other task)) (value : Extra) :
    AgreesUnless stop (constructorFormOfExtra perform value)
      (constructorFormOfExtra other value) := by
  cases value with
  | combinator number name? => exact (performs _).bind fun _ => .refl _
  | tuple serial items => exact (agrees_constructorForms performs items).bind fun _ => .refl _
  | _ => exact .refl _

theorem agrees_constructorForms (performs : ∀ task, AgreesUnless stop (perform task) (other task))
    (objects : List Object) :
    AgreesUnless stop (constructorForms perform objects) (constructorForms other objects) := by
  cases objects with
  | nil => exact .refl _
  | cons object objects =>
      exact (agrees_constructorForm performs object).bind fun _ =>
        (agrees_constructorForms performs objects).bind fun _ => .refl _

end

variable (performs : ∀ task, AgreesUnless stop (perform task) (other task))

include performs

theorem agrees_textOfExtra (value : Extra) :
    AgreesUnless stop (textOfExtra perform value) (textOfExtra other value) := by
  cases value with
  | combinator number name? => cases name? <;> exact .refl _
  | datum place value => exact .refl _
  | _ => exact agrees_constructorFormOfExtra performs _

theorem agrees_text (object : Object) :
    AgreesUnless stop (text perform object) (text other object) := by
  induction object with
  | app serial fn arg fn_ih arg_ih => exact fn_ih.bind fun _ => arg_ih.bind fun _ => .refl _
  | foreign value => exact agrees_textOfExtra performs value
  | _ => exact .refl _

theorem agrees_convert (object : Object) :
    AgreesUnless stop ((assembly perform).convert object) ((assembly other).convert object) := by
  cases object with
  | foreign value => exact performs _
  | _ => exact .refl _

theorem agrees_appAll (first : Object) (rest : List Object) :
    AgreesUnless stop ((assembly perform).app first rest) ((assembly other).app first rest) := by
  refine (agrees_convert performs first).bind fun first => ?_
  refine (AgreesUnless.mapM (agrees_convert performs)).bind fun rest => ?_
  -- Applications are put together without doing tasks.
  exact .refl (rest.foldlM (assembly perform).join first)

theorem agrees_abstract? (x : Var) (body : Object) :
    AgreesUnless stop ((assembly perform).abstract? x body)
      ((assembly other).abstract? x body) := by
  induction body with
  | app serial fn arg fn_ih arg_ih =>
      refine fn_ih.bind fun fnAbs => arg_ih.bind fun argAbs => ?_
      have distributes (f a : Object) :
          AgreesUnless stop (do return some (← (assembly perform).app (.term .S) [f, a]))
            (do return some (← (assembly other).app (.term .S) [f, a])) :=
        (agrees_appAll performs _ _).bind fun _ => .refl _
      cases fnAbs with
      | none =>
          cases argAbs with
          | none => exact .refl _
          | some argAbs =>
              dsimp only
              split
              · exact .refl _
              · exact (agrees_appAll performs _ _).bind fun _ => distributes _ _
      | some fnAbs =>
          cases argAbs with
          | none => exact (agrees_appAll performs _ _).bind fun _ => distributes _ _
          | some argAbs => exact distributes _ _
  | _ => exact .refl _

theorem agrees_abstract (x : Var) (body : Object) :
    AgreesUnless stop ((assembly perform).abstract x body) ((assembly other).abstract x body) := by
  have noted (abstraction : Object) :
      AgreesUnless stop (do (assembly perform).note x body abstraction; return abstraction)
        (do (assembly other).note x body abstraction; return abstraction) :=
    ((agrees_text performs body).bind fun _ => (agrees_text performs abstraction).bind fun _ =>
      .refl _).bind fun _ => .refl _
  refine (agrees_abstract? performs x body).bind fun found => ?_
  cases found with
  | some abstraction => exact noted abstraction
  | none => exact (agrees_appAll performs _ _).bind noted

theorem agrees_callFunction (signature : Signature Object) (body : Expr) (scope : Scope)
    (args : List Object) :
    AgreesUnless stop (callFunction perform signature body scope args)
      (callFunction other signature body scope args) := by
  refine (AgreesUnless.refl nextSerial).bind fun serial => ?_
  split
  · exact performs _
  · exact .refl _

theorem agrees_compileFunction (name : String) (signature : Signature Object) (body : Expr)
    (scope : Scope) :
    AgreesUnless stop (compileFunction perform name signature body scope)
      (compileFunction other name signature body scope) := by
  rw [compileFunction, compileFunction]
  split
  · exact .refl _
  · refine (AgreesUnless.refl _).bind fun xs => ?_
    refine (agrees_callFunction performs signature body scope _).bind fun result => ?_
    refine (agrees_convert performs result).bind fun expr => ?_
    refine (agrees_text performs expr).bind fun _ => (AgreesUnless.refl _).bind fun _ => ?_
    exact .foldlM (fun body x => agrees_abstract performs x body) expr

variable {compiler : Compiler} (compiles : ∀ name signature body scope,
  AgreesUnless stop (compileFunction perform name signature body scope)
    (compiler name signature body scope))

theorem agrees_app (objects : List Object) :
    AgreesUnless stop (app perform objects) (app other objects) := by
  cases objects with
  | nil => exact .refl _
  | cons first rest => exact agrees_appAll performs first rest

theorem agrees_infixApp (fn arg : Object) :
    AgreesUnless stop (infixApp perform fn arg) (infixApp other fn arg) := by
  rw [infixApp.eq_def, infixApp.eq_def]
  split
  · exact agrees_app performs _
  · split
    · exact agrees_app performs _
    · exact .refl _

theorem agrees_wrap (object : Object) :
    AgreesUnless stop (wrap perform object) (wrap other object) := by
  cases object with
  | foreign value =>
      cases value with
      | function | combinator => exact .refl _
      | _ => exact (agrees_textOfExtra performs _).bind fun _ => .refl _
  | _ => exact .refl _

include compiles

theorem agrees_compile (object : Object) :
    AgreesUnless stop (compile perform object) (compileBy compiler other object) := by
  cases object with
  | foreign value =>
      cases value with
      | function serial name signature body scope =>
          exact (compiles name signature body scope).bind fun _ => .refl _
      | combinator number name? => exact (agrees_text performs _).bind fun _ => .refl _
      | _ => exact .refl _
  | _ => exact (agrees_text performs _).bind fun _ => .refl _

theorem agrees_termOf (number : Nat) :
    AgreesUnless stop (termOf perform number) (termOfBy compiler other number) := by
  refine (AgreesUnless.refl _).bind fun bench => ?_
  cases bench.combinators[number]? with
  | none => exact .refl _
  | some combinator =>
      dsimp only
      cases combinator.term? with
      | some value => exact .refl _
      | none =>
          dsimp only
          split
          · rw [Combinator.refusal]
            cases combinator.name? <;> exact .refl _
          · have passed (before : Workbench) :
                ∃ after, (do changeCombinator number .abandoned; throw stop : Work TypedTerm).Fails
                  before stop after :=
              ⟨_, rfl⟩
            exact (AgreesUnless.refl _).bind fun _ =>
              ((agrees_compile performs compiles combinator.source).tryCatch passed).bind fun _ =>
                .refl _

theorem agrees_readExtra (value : Extra) :
    AgreesUnless stop (readExtra perform value) (readExtraBy compiler other value) := by
  cases value with
  | function serial name signature body scope => exact compiles name signature body scope
  | combinator number name? =>
      exact (agrees_termOf performs compiles number).bind fun _ => .refl _
  | _ => exact (agrees_constructorFormOfExtra performs _).bind fun _ => .refl _

theorem agrees_call (callee : Object) (args : List Object) :
    AgreesUnless stop (call perform callee args) (callBy compiler other callee args) := by
  cases callee with
  | foreign value =>
      cases value with
      | function serial name signature body scope =>
          exact agrees_callFunction performs signature body scope args
      | combinator number name? =>
          exact (agrees_termOf performs compiles number).bind fun _ => agrees_app performs _
      | _ => exact .refl _
  | term | var | app => exact agrees_app performs (_ :: args)

theorem agrees_performForm (form : Form) (objects : List Object) :
    AgreesUnless stop (performForm perform form objects)
      (performFormBy compiler other form objects) := by
  rw [performFormBy.eq_def]
  split
  · exact agrees_call performs compiles _ _
  · exact (agrees_termOf performs compiles _).bind fun _ => .refl _
  · next no_call no_term =>
      rw [performForm.eq_def, performForm.eq_def]
      split
      · exact agrees_app performs _
      · next callee args => exact (no_call callee args rfl rfl).elim
      · exact agrees_infixApp performs _ _
      · exact .refl _
      · exact agrees_convert performs _
      · exact agrees_abstract performs _ _
      · exact .refl _
      · exact agrees_wrap performs _
      · next number name? => exact (no_term number name? rfl rfl).elim
      · exact .refl _
      · exact .refl _

theorem agrees_evaluateExpr (scope : Scope) (expr : Expr) :
    AgreesUnless stop (evaluateExpr perform scope expr)
      (evaluateExprBy compiler other scope expr) := by
  cases expr with
  | form form parts =>
      exact (AgreesUnless.mapM fun _ => performs _).bind fun objects =>
        agrees_performForm performs compiles form objects
  | _ => exact .refl _

end Agreement

open ExceptT (AgreesUnless)

theorem compileFunction_unsupported (perform : Task → Work Object) {signature : Signature Object}
    (unsupported : signature.Unsupported) (name : String) (body : Expr) (scope : Scope) :
    compileFunction perform name signature body scope = throw refusal := by
  rw [compileFunction, Signature.isCompilable_eq_false_iff.mpr unsupported]
  rfl

/-- If functions are compiled in ways that agree, so are tasks done. -/
theorem agrees_performBy {stop : Interruption Failure}
    {compilerFor : (Task → Work Object) → Compiler}
    (compiles : ∀ {perform other : Task → Work Object},
      (∀ task, AgreesUnless stop (perform task) (other task)) → ∀ name signature body scope,
        AgreesUnless stop (compileFunction perform name signature body scope)
          (compilerFor other name signature body scope)) (steps : Nat) (task : Task) :
    AgreesUnless stop (perform steps task) (performBy compilerFor steps task) := by
  induction steps generalizing task with
  | zero => exact .refl _
  | succ steps ih =>
      cases task with
      | evaluate scope expr => exact agrees_evaluateExpr ih (compiles ih) scope expr
      | read value => exact agrees_readExtra ih (compiles ih) value

/-- Functions are compiled in the same way if what is done instead of refusing one agrees with the
refusal. -/
theorem agrees_compileFunctionOr {stop : Interruption Failure} {instead : Compiler}
    (refuses : ∀ name signature body scope,
      AgreesUnless stop (throw refusal) (instead name signature body scope))
    {perform other : Task → Work Object}
    (performs : ∀ task, AgreesUnless stop (perform task) (other task)) (name : String)
    (signature : Signature Object) (body : Expr) (scope : Scope) :
    AgreesUnless stop (compileFunction perform name signature body scope)
      (compileFunctionOr instead other name signature body scope) := by
  rw [compileFunctionOr]
  split
  · exact agrees_compileFunction performs name signature body scope
  · next unsupported =>
      rw [Bool.not_eq_true, Signature.isCompilable_eq_false_iff] at unsupported
      rw [compileFunction_unsupported perform unsupported]
      exact refuses name signature body scope

/-- If unsupported functions are refused all the same, then nothing is done in another way. -/
theorem performBy_refusal (steps : Nat) (task : Task) :
    performBy (compileFunctionOr fun _ _ _ _ => throw refusal) steps task = perform steps task := by
  have agrees (stop : Interruption Failure) : AgreesUnless stop (perform steps task)
      (performBy (compileFunctionOr fun _ _ _ _ => throw refusal) steps task) :=
    agrees_performBy (agrees_compileFunctionOr fun _ _ _ _ => .refl _) steps task
  exact ExceptT.eq_of_agreesUnless (by simp [refusal]) (agrees .unfinished) (agrees refusal)

/-! ## Unsupported functions -/

section Unsupported

variable {signature : Signature Object} {bench : Workbench}

theorem Workbench.changed_changed_eq {combinator : Combinator} {number : Nat}
    {change undo : Combinator → Combinator}
    (found : bench.combinators[number]? = some combinator)
    (undone : undo (change combinator) = combinator) :
    (bench.changed number change).changed number undo = bench := by
  have combinators_eq :
      (bench.combinators.modify number change).modify number undo = bench.combinators := by
    refine Array.ext_getElem? fun position => ?_
    by_cases same : number = position
    · subst same
      simp [Array.getElem?_modify, found, undone]
    · simp [Array.getElem?_modify, same]
  rw [changed, changed, combinators_eq]

/-- An unsupported function is not compiled to a term. -/
theorem fails_compile (perform : Task → Work Object) (unsupported : signature.Unsupported)
    (serial : Nat) (name : String) (body : Expr) (scope : Scope) (bench : Workbench) :
    (compile perform (.foreign (.function serial name signature body scope))).Fails bench refusal
      bench := by
  rw [compile, compileFunction_unsupported perform unsupported]
  rfl

/-- A combinator that wraps an unsupported function has no term. -/
theorem fails_termOf (perform : Task → Work Object) (unsupported : signature.Unsupported)
    {serial number : Nat} {name : String} {body : Expr} {scope : Scope} {name? : Option String}
    (found : bench.combinators[number]? = some
      { source := .foreign (.function serial name signature body scope), name?,
        compiling := false, term? := none }) :
    (termOf perform number).Fails bench refusal bench := by
  have compiled := fails_compile perform unsupported serial name body scope
    (bench.changed number .begun)
  rw [ExceptT.Fails, outcome_termOf_idle found rfl rfl]
  dsimp only
  rw [compiled]
  exact congrArg (Prod.mk _) (Workbench.changed_changed_eq found rfl)

/-- An unsupported function is not read as an expression. -/
theorem fails_convert (unsupported : signature.Unsupported) (steps serial : Nat) (name : String)
    (body : Expr) (scope : Scope) (bench : Workbench) :
    ((assembly (perform (steps + 1))).convert
      (.foreign (.function serial name signature body scope))).Fails bench refusal bench := by
  change (compileFunction (perform steps) name signature body scope).Fails bench refusal bench
  rw [compileFunction_unsupported (perform steps) unsupported]
  rfl

theorem not_returns_mapM_of_mem {α β : Type} {step : α → Work β} {item : α} {items : List α}
    (mem : item ∈ items) (fails : ∀ before result after, ¬ (step item).Returns before result after)
    (before : Workbench) (results : List β) (after : Workbench) :
    ¬ (items.mapM step).Returns before results after := by
  induction items generalizing before results after with
  | nil => cases mem
  | cons first rest ih =>
      rw [List.mapM_cons]
      intro returned
      obtain ⟨result, middle, first_returned, returned⟩ := ExceptT.returns_bind.mp returned
      obtain ⟨others, later, rest_returned, -⟩ := ExceptT.returns_bind.mp returned
      rcases List.mem_cons.mp mem with rfl | mem
      · exact fails before result middle first_returned
      · exact ih mem middle others later rest_returned

/-- No application has an unsupported function for a part. -/
theorem not_returns_app (unsupported : signature.Unsupported) {serial : Nat} {name : String}
    {body : Expr} {scope : Scope} {objects : List Object}
    (mem : .foreign (.function serial name signature body scope) ∈ objects) (steps : Nat)
    (bench : Workbench) (result : Object) (after : Workbench) :
    ¬ (app (perform steps) objects).Returns bench result after := by
  have unread (before : Workbench) (result : Object) (after : Workbench) :
      ¬ ((assembly (perform steps)).convert
        (.foreign (.function serial name signature body scope))).Returns before result after := by
    intro returned
    cases steps with
    | zero => cases returned
    | succ steps =>
        have failed := fails_convert unsupported steps serial name body scope before
        cases failed.symm.trans returned
  cases objects with
  | nil => cases mem
  | cons first rest =>
      intro returned
      obtain ⟨head, middle, first_read, returned⟩ := ExceptT.returns_bind.mp returned
      obtain ⟨others, later, rest_read, -⟩ := ExceptT.returns_bind.mp returned
      rcases List.mem_cons.mp mem with rfl | mem
      · exact unread bench head middle first_read
      · exact not_returns_mapM_of_mem mem unread middle others later rest_read

/-- A function whose body gives an unsupported one is not compiled either. -/
theorem fails_compileFunction_of_result (unsupported : signature.Unsupported) {steps : Nat}
    {outer : Signature Object} (compilable : outer.isCompilable) {outerBody : Expr}
    {outerScope : Scope} {xs : List Var} {middle after : Workbench} {serial : Nat} {name : String}
    {body : Expr} {scope : Scope}
    (drawn : (outer.positional.mapM fun parameter => newVar parameter.name).Returns bench xs middle)
    (called : (callFunction (perform (steps + 1)) outer outerBody outerScope
      (xs.map .var)).Returns middle (.foreign (.function serial name signature body scope)) after)
    (outerName : String) :
    (compileFunction (perform (steps + 1)) outerName outer outerBody outerScope).Fails bench refusal
      after := by
  rw [compileFunction, compilable]
  have unread := fails_convert unsupported steps serial name body scope after
  exact drawn.bind_fails (called.bind_fails (unread.bind _))

end Unsupported

/--
A function with arguments left over or a default value for an argument taken by position is refused
at once and nothing is changed, whether it is compiled, read as an expression or wrapped as a
combinator. No application has it for a part, and no function is compiled whose body gives it.
However deep it is met while something is done, its refusal ends all of that: unless it does, the
work goes the same way with a compiler that does something else instead of refusing such functions.
With a compiler that refuses them all the same, it is the usual work.
-/
theorem unsupported_functions_are_refused (steps : Nat) :
    (∀ {signature : Signature Object}, signature.Unsupported →
      ∀ (serial : Nat) (name : String) (body : Expr) (scope : Scope) (bench : Workbench),
        let function : Extra := .function serial name signature body scope
        (compile (perform steps) (.foreign function)).Fails bench refusal bench ∧
          (readExtra (perform steps) function).Fails bench refusal bench ∧
          (∀ number name?, bench.combinators[number]? = some
              { source := .foreign function, name?, compiling := false, term? := none } →
            (termOf (perform steps) number).Fails bench refusal bench) ∧
          (∀ objects, .foreign function ∈ objects → ∀ result after,
            ¬ (app (perform steps) objects).Returns bench result after) ∧
          ∀ outerName outer outerBody outerScope xs middle after, outer.isCompilable →
            (outer.positional.mapM fun parameter => newVar parameter.name).Returns bench xs
                middle →
              (callFunction (perform (steps + 1)) outer outerBody outerScope
                  (xs.map .var)).Returns middle (.foreign function) after →
                (compileFunction (perform (steps + 1)) outerName outer outerBody outerScope).Fails
                  bench refusal after) ∧
      (∀ task,
        performBy (compileFunctionOr fun _ _ _ _ => throw refusal) steps task =
          perform steps task) ∧
      ∀ instead : Compiler,
        let other := performBy (compileFunctionOr instead) steps
        let compiler := compileFunctionOr instead other
        (∀ task, AgreesUnless refusal (perform steps task) (other task)) ∧
          (∀ object, AgreesUnless refusal (compile (perform steps) object)
            (compileBy compiler other object)) ∧
          (∀ number, AgreesUnless refusal (termOf (perform steps) number)
            (termOfBy compiler other number)) ∧
          (∀ value, AgreesUnless refusal (readExtra (perform steps) value)
            (readExtraBy compiler other value)) ∧
          ∀ objects, AgreesUnless refusal (app (perform steps) objects) (app other objects) := by
  refine ⟨fun {signature} unsupported serial name body scope bench => ?_, performBy_refusal steps,
    fun instead => ?_⟩
  · refine ⟨fails_compile (perform steps) unsupported serial name body scope bench,
      fails_convert unsupported steps serial name body scope bench,
      fun number name? => fails_termOf (perform steps) unsupported,
      fun objects mem => not_returns_app unsupported mem steps bench, ?_⟩
    intro outerName outer outerBody outerScope xs middle after compilable drawn called
    exact fails_compileFunction_of_result unsupported compilable drawn called outerName
  · have refuses (name : String) (signature : Signature Object) (body : Expr) (scope : Scope) :
        AgreesUnless refusal (throw refusal) (instead name signature body scope) :=
      ExceptT.agreesUnless_of_fails (fun before => ⟨before, rfl⟩) _
    have performs := agrees_performBy (agrees_compileFunctionOr refuses) steps
    have compiles := agrees_compileFunctionOr refuses performs
    exact ⟨performs, agrees_compile performs compiles, agrees_termOf performs compiles,
      agrees_readExtra performs compiles, agrees_app performs⟩

/-- A function that takes arguments left over is refused by itself, and where it is the second
argument that something is applied to. -/
theorem function_with_rest_is_refused :
    let signature : Signature Object :=
      { positional := [⟨"x", none⟩], rest? := some "xs", keywordOnly := [], keywords? := none }
    let function : Object := .foreign (.function 0 "first" signature (.name "x") [])
    signature.Unsupported ∧
      (compile (perform 1) function).Fails .initial refusal .initial ∧
        ∀ result after,
          ¬ (app (perform 1) [.term .S, .term .K, function]).Returns .initial result after := by
  intro signature function
  have unsupported : signature.Unsupported := .inl rfl
  obtain ⟨compiled, -, -, applied, -⟩ := (unsupported_functions_are_refused 1).1 unsupported 0
    "first" (.name "x") [] .initial
  exact ⟨unsupported, compiled, applied _ (by simp [function])⟩

/-- A function of one parameter taken by keyword only is compiled to the default value that it
gives. -/
theorem compile_returns_default (value : TypedTerm) :
    ∃ after, (compile (perform 1) (.foreign (.function 0 "constant"
      { positional := [], rest? := none, keywordOnly := [⟨"k", some (.term value)⟩],
        keywords? := none } (.name "k") []))).Returns .initial value after := by
  let signature : Signature Object :=
    { positional := [], rest? := none, keywordOnly := [⟨"k", some (.term value)⟩],
      keywords? := none }
  obtain ⟨opened, opened_returned⟩ : ∃ opened,
      (openFunction (perform 1) signature (.name "k") []).Returns .initial ([], .term value)
        opened :=
    ⟨_, rfl⟩
  have opened_sound : Workbench.StaysSound .initial opened :=
    (keeps_openFunction _ _ _).after_returns opened_returned
  have term_stands : Stands id (.term value) (.term value) := .term value
  have closes : Mirrors (Stands id) (closeFunction (perform 1) "constant" [] (.term value)) opened
      (.ok (.term value)) := term_stands.mirrors_closeFunction _ _ _
  obtain ⟨later, -, closed, returned, closed_stands⟩ :=
    closes (opened_sound Workbench.Reachable.initial.sound)
  cases closed_stands
  have compiled : (compileFunction (perform 1) "constant" signature (.name "k") []).Returns
      .initial (.term value) later := by
    rw [compileFunction_eq]
    exact opened_returned.bind returned
  exact ⟨later, ExceptT.Returns.bind compiled rfl⟩

/-- A function is compiled although it has a default value for an argument that it takes by keyword
only. The default value, which is `I`, is what it is compiled to. -/
theorem default_by_keyword_is_compiled :
    let signature : Signature Object :=
      { positional := [], rest? := none, keywordOnly := [⟨"k", some (.term .I)⟩],
        keywords? := none }
    ∃ after, (compile (perform 1) (.foreign (.function 0 "constant" signature (.name "k")
      []))).Returns .initial .I after :=
  compile_returns_default .I

end Lambda
end Combinatory
