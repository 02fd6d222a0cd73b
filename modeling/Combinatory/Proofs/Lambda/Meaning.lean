import Combinatory.Proofs.Evaluation.Stateless
import Combinatory.Proofs.Lambda.Calculus

/-!
# What expressions mean

An expression is evaluated like a term, with values assigned to its variables. To abstract a
variable gives an expression whose value, called on an argument, does what the old expression does
with the argument assigned to the variable. Calls of functions of the host may move: a part without
the variable is evaluated when the abstraction is, and the parts of an application are evaluated
before either of them is called on the argument. No call is lost or made twice.
-/

namespace Combinatory

open Function (update update_self update_of_ne)
open Effect (Steady Agree)

namespace Open

variable {H σ ε : Type}

/-- The value of an expression where values are assigned to variables: function part, argument part,
call. -/
def evaluate (host : Host H σ ε) (steps : Nat) (assigned : Var → Value H) :
    Open Empty → Effect σ ε (Value H)
  | term value => host.evaluate steps value.term
  | var x => return assigned x
  | app _ fn arg => do
      let fn ← fn.evaluate host steps assigned
      let arg ← arg.evaluate host steps assigned
      host.apply steps fn arg
  | foreign value => nomatch value

/-- Only the variables that occur in an expression matter to its value. -/
theorem evaluate_congr {host : Host H σ ε} {steps : Nat} {assigned other : Var → Value H}
    {expr : Open Empty} (agree : ∀ x, expr.Mentions x → assigned x = other x) :
    expr.evaluate host steps assigned = expr.evaluate host steps other := by
  induction expr with
  | term value => rfl
  | var x => rw [evaluate, evaluate, agree x rfl]
  | app serial fn arg fn_ih arg_ih =>
      rw [evaluate, evaluate, fn_ih fun x occurs => agree x (.inl occurs),
        arg_ih fun x occurs => agree x (.inr occurs)]
  | foreign value => exact value.elim

theorem evaluate_update {host : Host H σ ε} {steps : Nat} {assigned : Var → Value H}
    {expr : Open Empty} {x : Var} (absent : ¬ expr.Mentions x) (value : Value H) :
    expr.evaluate host steps (update assigned x value) = expr.evaluate host steps assigned := by
  refine evaluate_congr fun y occurs => update_of_ne ?_ _ _
  rintro rfl
  exact absent occurs

theorem steady_evaluate (functions : Stateless H ε) (assigned : Var → Value H) (expr : Open Empty) :
    Steady fun steps => expr.evaluate functions.host steps assigned := by
  induction expr with
  | term value => exact functions.steady_evaluate value.term
  | var x => exact Effect.steady_pure _
  | app serial fn arg fn_ih arg_ih =>
      exact fn_ih.bind fun fn => arg_ih.bind fun arg => functions.steady_apply fn arg
  | foreign value => exact value.elim

end Open

namespace Assembly

variable {H σ ε : Type} {host : Host H σ ε} {assigned : Var → Value H}

/-! ## Expressions put together -/

/-- Joined expressions are evaluated like an application of them. -/
theorem evaluate_join {fn arg expr : Open Empty} (ok : closed.join fn arg = .ok expr)
    (steps : Nat) :
    expr.evaluate host steps assigned =
      (do
        let fn ← fn.evaluate host steps assigned
        let arg ← arg.evaluate host steps assigned
        host.apply steps fn arg) := by
  rcases join_cases fn arg with ⟨f, a, rfl, rfl⟩ | apart
  · rw [closed_join_terms] at ok
    cases applied : f.app? a with
    | error refusal =>
        rw [applied] at ok
        cases ok
    | ok application =>
        rw [applied] at ok
        obtain rfl := Except.ok.inj ok
        rw [Open.evaluate, TypedTerm.app?_ok applied]
        rfl
  · rw [closed_join_apart apart] at ok
    obtain rfl := Except.ok.inj ok
    rfl

/-- An expression under `K` is evaluated, and its value is kept. -/
theorem evaluate_kept {body expr : Open Empty} (ok : closed.join (.term .K) body = .ok expr)
    (steps : Nat) :
    expr.evaluate host (steps + 1) assigned = do
      return .constantly (← body.evaluate host (steps + 1) assigned) :=
  evaluate_join ok (steps + 1)

/-- The parts under `S` are evaluated one after the other, and their values are kept. -/
theorem evaluate_distributed {fnAbs argAbs expr : Open Empty}
    (ok : closed.app (.term .S) [fnAbs, argAbs] = .ok expr) (steps : Nat) :
    expr.evaluate host (steps + 1) assigned =
      (do
        let p ← fnAbs.evaluate host (steps + 1) assigned
        let f ← argAbs.evaluate host (steps + 1) assigned
        return .distribute p f) := by
  rw [closed_app_two] at ok
  obtain ⟨middle, first, second⟩ := bind_eq_ok.mp ok
  rw [evaluate_join second, evaluate_join first]
  simp only [bind_assoc]
  rfl

/-! ## Abstraction -/

section Abstraction

variable {functions : Stateless H ε} {x : Var} {value : Value H}

/-- If calls of the parts do what the parts of an application do, then calls of the distribution of
them do what the application does. -/
theorem agree_distributed {other : Var → Value H} {fn arg fnAbs argAbs expr : Open Empty}
    (serial : Nat) (ok : closed.app (.term .S) [fnAbs, argAbs] = .ok expr)
    (fn_agree : Agree
      (fun steps => do
        functions.host.apply steps (← fnAbs.evaluate functions.host steps assigned) value)
      (fun steps => fn.evaluate functions.host steps other))
    (arg_agree : Agree
      (fun steps => do
        functions.host.apply steps (← argAbs.evaluate functions.host steps assigned) value)
      (fun steps => arg.evaluate functions.host steps other)) :
    Agree
      (fun steps => do
        functions.host.apply steps (← expr.evaluate functions.host steps assigned) value)
      (fun steps => (Open.app serial fn arg).evaluate functions.host steps other) := by
  have evaluates (expr : Open Empty) := expr.steady_evaluate functions assigned
  have applies := functions.steady_apply
  have distributes (p f : Value H) := functions.agree_distribute p f value
  calc
    Agree _ (fun steps => do
        let p ← fnAbs.evaluate functions.host steps assigned
        let f ← argAbs.evaluate functions.host steps assigned
        functions.host.apply steps (.distribute p f) value) := by
      refine .of_succ ((evaluates expr).bind fun fn => applies fn value)
        ((evaluates fnAbs).bind fun p => (evaluates argAbs).bind fun f => applies _ value)
        fun steps => ?_
      simp only [evaluate_distributed ok, bind_assoc, pure_bind]
    Agree _ (fun steps => do
        let p ← fnAbs.evaluate functions.host steps assigned
        let f ← argAbs.evaluate functions.host steps assigned
        let fn ← functions.host.apply steps p value
        let arg ← functions.host.apply steps f value
        functions.host.apply steps fn arg) :=
      (evaluates fnAbs).agree.bind fun p => (evaluates argAbs).agree.bind fun f => distributes p f
    Agree _ (fun steps => do
        let p ← fnAbs.evaluate functions.host steps assigned
        let fn ← functions.host.apply steps p value
        let f ← argAbs.evaluate functions.host steps assigned
        let arg ← functions.host.apply steps f value
        functions.host.apply steps fn arg) :=
      -- The second part is evaluated without the result of the first call, and the other way round.
      (evaluates fnAbs).agree.bind fun p =>
        Effect.agree_exchange (evaluates argAbs) (applies p value) fun f fn =>
          (applies f value).bind fun arg => applies fn arg
    Agree _ (fun steps => do
        let fn ← fn.evaluate functions.host steps other
        let arg ← arg.evaluate functions.host steps other
        functions.host.apply steps fn arg) := by
      have parts_agree := fn_agree.bind fun fn =>
        arg_agree.bind fun arg => (applies fn arg).agree
      simp only [bind_assoc] at parts_agree
      exact parts_agree

/-- The value of an abstraction, called on an argument, does what the expression does with the
argument assigned to the variable. -/
theorem Eliminates.agree {body expr : Open Empty} (eliminates : Eliminates x body expr)
    (functions : Stateless H ε) (assigned : Var → Value H) (value : Value H) :
    Agree
      (fun steps => do
        functions.host.apply steps (← expr.evaluate functions.host steps assigned) value)
      (fun steps => body.evaluate functions.host steps (update assigned x value)) := by
  have calls (expr : Open Empty) :=
    (expr.steady_evaluate functions assigned).bind fun fn => functions.steady_apply fn value
  have evaluates (expr : Open Empty) := expr.steady_evaluate functions (update assigned x value)
  induction eliminates with
  | here =>
      refine .of_succ (calls _) (evaluates _) fun steps => ?_
      rw [Open.evaluate, Open.evaluate, update_self]
      rfl
  | @kept body expr absent ok =>
      refine .of_succ (calls _) (evaluates _) fun steps => ?_
      rw [evaluate_kept ok, Open.evaluate_update absent]
      exact (bind_assoc _ _ _).trans (bind_pure _)
  | @eta serial fn absent =>
      refine .of_succ (calls _) (evaluates _) fun steps => ?_
      simp only [Open.evaluate, Open.evaluate_update absent, update_self, pure_bind]
  | @distributed serial fn arg fnAbs argAbs expr _ _ ok fn_ih arg_ih =>
      exact agree_distributed serial ok fn_ih arg_ih

end Abstraction

/-- The values assigned to variables, with arguments for several of them. -/
def assign (assigned : Var → Value H) (xs : List Var) (args : List (Value H)) : Var → Value H :=
  (xs.zip args).foldl (fun assigned (x, arg) => update assigned x arg) assigned

/-- The value of the abstraction of several variables, called on as many arguments in turn, does
what the expression does with the arguments assigned to the variables. -/
theorem agree_abstractAll {xs : List Var} {body expr : Open Empty}
    (ok : closed.abstractAll xs body = .ok expr) (functions : Stateless H ε)
    (assigned : Var → Value H) {args : List (Value H)} (same_length : xs.length = args.length) :
    Agree
      (fun steps => do
        functions.host.applyAll steps (← expr.evaluate functions.host steps assigned) args)
      (fun steps => body.evaluate functions.host steps (assign assigned xs args)) := by
  induction xs generalizing expr assigned args with
  | nil =>
      obtain rfl := List.length_eq_zero_iff.mp same_length.symm
      obtain rfl := Except.ok.inj ok
      simp only [Host.applyAll, List.foldlM_nil, bind_pure]
      exact (body.steady_evaluate functions assigned).agree
  | cons x xs ih =>
      cases args with
      | nil => cases same_length
      | cons arg args =>
          rw [closed.abstractAll_cons] at ok
          obtain ⟨inner, inner_ok, outer_ok⟩ := bind_eq_ok.mp ok
          have first_agree :=
            (eliminates_of_abstract outer_ok).agree functions assigned arg
          calc
            Agree _ (fun steps => do
                let fn ← inner.evaluate functions.host steps (update assigned x arg)
                functions.host.applyAll steps fn args) := by
              have called := first_agree.bind fun fn => (functions.steady_applyAll fn args).agree
              simp only [bind_assoc] at called
              exact called
            Agree _ (fun steps => body.evaluate functions.host steps
                (assign assigned (x :: xs) (arg :: args))) :=
              ih inner_ok (update assigned x arg) (Nat.succ.inj same_length)

end Assembly

namespace LambdaTerm

variable {H σ ε : Type}

/-- The value of a lambda term where values are assigned to its variables: function part, argument
part, call. A function has the value of the expression that it is compiled to. -/
def evaluate (host : Host H σ ε) (steps : Nat) (assigned : Var → Value H) :
    LambdaTerm → Effect σ ε (Value H)
  | var x => return assigned x
  | const value => host.evaluate steps value.term
  | app fn arg => do
      let fn ← fn.evaluate host steps assigned
      let arg ← arg.evaluate host steps assigned
      host.apply steps fn arg
  | lam x body =>
      match (lam x body).compile with
      | .ok expr => expr.evaluate host steps assigned
      | .error _ => throw .unfinished

/-- A lambda term that can be compiled is evaluated like what it is compiled to. -/
theorem evaluate_of_compile {host : Host H σ ε} {steps : Nat} {assigned : Var → Value H}
    {term : LambdaTerm} {expr : Open Empty} (ok : term.compile = .ok expr) :
    term.evaluate host steps assigned = expr.evaluate host steps assigned := by
  induction term generalizing expr with
  | var x =>
      obtain rfl := Except.ok.inj ok
      rfl
  | const value =>
      obtain rfl := Except.ok.inj ok
      rfl
  | app fn arg fn_ih arg_ih =>
      obtain ⟨fnExpr, fn_ok, ok⟩ := Assembly.bind_eq_ok.mp ok
      obtain ⟨argExpr, arg_ok, ok⟩ := Assembly.bind_eq_ok.mp ok
      rw [evaluate, Assembly.evaluate_join ok, fn_ih fn_ok, arg_ih arg_ok]
  | lam x body _ => rw [evaluate, ok]

end LambdaTerm

/-! ## The same behaviour -/

/-- In every host without memory, the value of the second expression, called on an argument, returns
exactly what the first one does with the argument for the variable, and makes the same calls of
functions of the host, in whatever order. -/
def Open.AbstractsTo (x : Var) (body abstraction : Open Empty) : Prop :=
  ∀ ⦃H ε : Type⦄ (functions : Stateless H ε) (assigned : Var → Value H) (value result : Value H)
    (calls : Multiset (Call H)),
    Effect.Completes
        (fun steps => do
          functions.host.apply steps (← abstraction.evaluate functions.host steps assigned) value)
        result calls ↔
      Effect.Completes
        (fun steps => body.evaluate functions.host steps (update assigned x value)) result calls

/-- In every host without memory, the value of the term, called on arguments in turn, returns
exactly what the body does with the arguments for the parameters, and makes the same calls of
functions of the host, in whatever order. -/
def LambdaTerm.ComputedBy (parameters : List Var) (body : LambdaTerm) (term : Term) : Prop :=
  ∀ ⦃H ε : Type⦄ (functions : Stateless H ε) (assigned : Var → Value H) (args : List (Value H)),
    parameters.length = args.length → ∀ (result : Value H) (calls : Multiset (Call H)),
      Effect.Completes
          (fun steps => do
            functions.host.applyAll steps (← functions.host.evaluate steps term) args)
          result calls ↔
        Effect.Completes
          (fun steps =>
            body.evaluate functions.host steps (Assembly.assign assigned parameters args))
          result calls

theorem Assembly.abstractsTo {x : Var} {body abstraction : Open Empty}
    (ok : closed.abstract x body = .ok abstraction) : Open.AbstractsTo x body abstraction := by
  intro H ε functions assigned value
  exact ((eliminates_of_abstract ok).agree functions assigned value).completes_iff

theorem LambdaTerm.computedBy {parameters : List Var} {body : LambdaTerm} {value : TypedTerm}
    (ok : (lams parameters body).compile = .ok (.term value)) :
    body.ComputedBy parameters value.term := by
  intro H ε functions assigned args same_length
  rw [compile_lams] at ok
  obtain ⟨expr, body_ok, abstracted⟩ := Assembly.bind_eq_ok.mp ok
  simp only [evaluate_of_compile body_ok]
  exact (Assembly.agree_abstractAll abstracted functions assigned same_length).completes_iff

end Combinatory
