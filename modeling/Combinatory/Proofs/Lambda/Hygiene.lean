import Combinatory.Proofs.Lambda.Alongside

/-!
# Closed expressions and the variables of open ones

Whatever is put together in a session without raw applications, an expression is a closed term
exactly if no variable is left in it. Abstraction removes its variable and no other one, whatever
these are called. So a function is compiled to a closed term, unless an application has no type or
its body mentions variables that are not its own, and the names of its parameters do not matter.
-/

namespace Combinatory

/-- The expression has the part, which may be all of it. -/
inductive Open.Contains {α : Type} : Open α → Open α → Prop
  /-- All of it. -/
  | self (expr : Open α) : Contains expr expr
  /-- A part of the function of an application. -/
  | fn {serial : Nat} {fn arg part : Open α} (contains : Contains fn part) :
      Contains (.app serial fn arg) part
  /-- A part of the argument of an application. -/
  | arg {serial : Nat} {fn arg part : Open α} (contains : Contains arg part) :
      Contains (.app serial fn arg) part

namespace Assembly

open Open (Mentions Joined)

end Assembly

namespace Lambda

/-! ## Variables of expressions -/

section Variables

variable {pairs : Pairing} {object other : Object} {expr : Open Empty}

theorem Stands.freeVars_eq (stands : Stands id object expr) :
    object.freeVars = .ok (varsOf expr) := by
  rw [stands.freeVars fun _ _ _ _ => id, List.map_id]

/-- A joined expression without variables is a closed term. -/
theorem isTerm_iff_varsOf_eq_nil (joined : expr.Joined) :
    expr.isTerm = true ↔ varsOf expr = [] := by
  constructor
  · intro is_term
    cases expr with
    | term value => rfl
    | _ => cases is_term
  · intro no_vars
    obtain ⟨value, rfl⟩ := joined.exists_term fun x occurs => by
      have mem := (mem_varsOf_iff expr x).mpr occurs
      rw [no_vars] at mem
      cases mem
    rfl

/-- Expressions that are twins are joined. -/
theorem TwinExpr.exists_stands (twins : TwinExpr pairs object other) :
    ∃ expr, Stands id object expr ∧ expr.Joined := by
  induction twins with
  | term value => exact ⟨.term value, .term value, trivial⟩
  | @var x _ _ => exact ⟨.var x, .var x, trivial⟩
  | app serial _ _ apart fn_ih arg_ih =>
      obtain ⟨fn, fn_stands, fn_joined⟩ := fn_ih
      obtain ⟨arg, arg_stands, arg_joined⟩ := arg_ih
      rw [fn_stands.isTerm, arg_stands.isTerm] at apart
      exact ⟨.app serial fn arg, .app fn_stands arg_stands, fn_joined, arg_joined, apart⟩

theorem TwinExpr.part (twins : TwinExpr pairs object other) {part : Object}
    (contains : object.Contains part) : ∃ counterpart, TwinExpr pairs part counterpart := by
  induction contains generalizing other with
  | self => exact ⟨other, twins⟩
  | fn _ ih =>
      cases twins with
      | app _ fns => exact ih fns
  | arg _ ih =>
      cases twins with
      | app _ _ args => exact ih args

/-- The variables of twins are paired. -/
theorem TwinExpr.paired (twins : TwinExpr pairs object other) {vars : List Var}
    (listed : object.freeVars = .ok vars) {x : Var} (mem : x ∈ vars) : ∃ y, pairs x y := by
  induction twins generalizing vars with
  | term =>
      cases listed
      cases mem
  | @var _ y paired =>
      cases listed
      obtain rfl := List.mem_singleton.mp mem
      exact ⟨y, paired⟩
  | app _ fns args _ fn_ih arg_ih =>
      obtain ⟨fnVars, -, fn_listed, -⟩ := fns.freeVars
      obtain ⟨argVars, -, arg_listed, -⟩ := args.freeVars
      simp only [Open.freeVars, fn_listed, arg_listed] at listed
      cases listed
      rcases List.mem_append.mp mem with mem | mem
      · exact fn_ih fn_listed mem
      · exact arg_ih arg_listed (List.mem_of_mem_filter mem)

/-- An expression that is like another one is a closed term exactly if it has no variables. -/
theorem TwinExpr.isTerm_iff (twins : TwinExpr pairs object other) :
    ∃ vars, object.freeVars = .ok vars ∧ (object.isTerm = true ↔ vars = []) := by
  obtain ⟨expr, stands, joined⟩ := twins.exists_stands
  exact ⟨varsOf expr, stands.freeVars_eq, by rw [stands.isTerm, isTerm_iff_varsOf_eq_nil joined]⟩

end Variables

/-! ## Abstraction -/

section Elimination

variable {perform : Task → Work Object} {pairs : Pairing} {bench after : Workbench}

/-- The variables of an abstraction are those of the expression without the one that is
abstracted. -/
theorem Stands.freeVars_of_abstract {object : Object} {expr : Open Empty}
    (stands : Stands id object expr) (sound : bench.terms.Sound) {x : Var} {result : Object}
    (returned : ((assembly perform).abstract x object).Returns bench result after) :
    ∃ left, result.freeVars = .ok left ∧ ∀ z, z ∈ left ↔ z ∈ varsOf expr ∧ z ≠ x := by
  have mirrors : Mirrors (Stands id) ((assembly perform).abstract (id x) object) bench _ :=
    stands.mirrors_abstract (fun _ _ => id) bench
  obtain ⟨abstraction, ok, result_stands⟩ := mirrors.exists_of_returns sound returned
  refine ⟨varsOf abstraction, result_stands.freeVars_eq, fun z => ?_⟩
  rw [mem_varsOf_iff, mem_varsOf_iff, (Assembly.eliminates_of_abstract ok).mentions]

/-- No two variables of twins have one serial number, so the number tells which variable an
abstraction has lost. -/
theorem TwinExpr.freeVars_of_abstract (apart : pairs.Apart) (sound : bench.terms.Sound)
    {body other : Object} (bodies : TwinExpr pairs body other) {x y : Var} (paired : pairs x y)
    {result : Object} (returned : ((assembly perform).abstract x body).Returns bench result after) :
    ∃ vars left, body.freeVars = .ok vars ∧ result.freeVars = .ok left ∧
      ∀ z, z ∈ left ↔ z ∈ vars ∧ z.serial ≠ x.serial := by
  obtain ⟨expr, stands, -⟩ := bodies.exists_stands
  obtain ⟨left, listed, mem_left_iff⟩ := stands.freeVars_of_abstract sound returned
  refine ⟨varsOf expr, left, stands.freeVars_eq, listed, fun z => ?_⟩
  rw [mem_left_iff]
  refine and_congr_right fun mem => not_congr ⟨congrArg Var.serial, fun same => ?_⟩
  obtain ⟨w, z_paired⟩ := bodies.paired stands.freeVars_eq mem
  exact (apart.unique z_paired paired same).1

/-- Parameters are eliminated as from an expression of terms, variables and applications. -/
theorem Stands.mirrors_closeFunction {object : Object} {expr : Open Empty}
    (stands : Stands id object expr) (name : String) (xs : List Var) (bench : Workbench) :
    Mirrors (Stands id) (closeFunction perform name xs object) bench
      (Assembly.closed.abstractAll xs expr) := by
  refine .after (stands.mirrors_text bench) fun _ middle _ => ?_
  refine .after (mirrors_log _ middle) fun _ later _ => ?_
  have mirrors : Mirrors (Stands id) ((assembly perform).abstractAll (xs.map id) object) later _ :=
    stands.mirrors_abstractAll (fun _ _ _ _ => id) later
  rwa [List.map_id] at mirrors

end Elimination

/-! ## Sessions -/

section Sessions

variable {bench renamed middle after : Workbench} {steps : Nat}

theorem keeps_openFunction {law : Workbench → Workbench → Prop} [Law law]
    (signature : Signature Object) (body : Expr) (scope : Scope) :
    Keeps law (openFunction (perform steps) signature body scope) := by
  have performs (task : Task) : Keeps law (perform steps task) := keeps_perform steps task
  unfold openFunction
  split
  · exact keeps_raise _
  · exact (keeps_mapM fun _ => keeps_newVar _).bind fun _ =>
      (keeps_callFunction performs signature body scope _).bind fun _ =>
        (keeps_convert performs _).bind fun _ => keeps_pure _

end Sessions

end Lambda
end Combinatory
