import Combinatory.Proofs.Evaluation.Totality
import Combinatory.Proofs.Term.Building

/-!
# The equations of the combinators

Somewhere inside a term, `S p f x` is replaced by `p x (f x)`, `K x y` by `x` or `I x` by `x`. The
term keeps all its types and may get more, because the two occurrences of `x` that come of one may
have different types and those of `y` no longer matter. It evaluates to the very same function.
-/

namespace Combinatory
namespace Term

/-- One occurrence of a left side of an equation in the first term is replaced by the right side. -/
inductive Contracts : Term → Term → Prop
  /-- `S p f x` becomes `p x (f x)`. -/
  | distributor (p f x : Term) : Contracts (apps S [p, f, x]) (app (app p x) (app f x))
  /-- `K x y` becomes `x`. -/
  | constant (x y : Term) : Contracts (apps K [x, y]) x
  /-- `I x` becomes `x`. -/
  | identity (x : Term) : Contracts (app I x) x
  /-- The occurrence is in the function part. -/
  | inFn {fn contracted : Term} (arg : Term) (contracts : Contracts fn contracted) :
      Contracts (app fn arg) (app contracted arg)
  /-- The occurrence is in the argument part. -/
  | inArg (fn : Term) {arg contracted : Term} (contracts : Contracts arg contracted) :
      Contracts (app fn arg) (app fn contracted)

/-- All types of a term are types of what it contracts to. -/
theorem Contracts.hasType {term contracted : Term} (contracts : term.Contracts contracted)
    {type : Ty} (typed : term.HasType type) : contracted.HasType type := by
  induction contracts generalizing type with
  | distributor p f x =>
      obtain ⟨dom, fn_typed, x_typed⟩ := hasType_app_iff.mp typed
      obtain ⟨_, fn_typed, f_typed⟩ := hasType_app_iff.mp fn_typed
      obtain ⟨_, s_typed, p_typed⟩ := hasType_app_iff.mp fn_typed
      obtain ⟨_, _, _, s_type⟩ := hasType_S_iff.mp s_typed
      cases s_type
      exact .app (.app p_typed x_typed) (.app f_typed x_typed)
  | constant x y =>
      obtain ⟨_, fn_typed, -⟩ := hasType_app_iff.mp typed
      obtain ⟨_, k_typed, x_typed⟩ := hasType_app_iff.mp fn_typed
      obtain ⟨_, _, k_type⟩ := hasType_K_iff.mp k_typed
      cases k_type
      exact x_typed
  | identity x =>
      obtain ⟨_, i_typed, x_typed⟩ := hasType_app_iff.mp typed
      obtain ⟨_, i_type⟩ := hasType_I_iff.mp i_typed
      cases i_type
      exact x_typed
  | inFn arg _ fn_ih =>
      obtain ⟨_, fn_typed, arg_typed⟩ := hasType_app_iff.mp typed
      exact .app (fn_ih fn_typed) arg_typed
  | inArg fn _ arg_ih =>
      obtain ⟨_, fn_typed, arg_typed⟩ := hasType_app_iff.mp typed
      exact .app fn_typed (arg_ih arg_typed)

/-- Where nothing is left to the host, a term that evaluates contracts to one that evaluates to the
same value with the same steps, because the calls that the equation asks for were made before. -/
theorem Contracts.evaluate {term contracted : Term} (contracts : term.Contracts contracted)
    {steps : Nat} {value : Value Empty}
    (returned : (Host.none.evaluate steps term).Returns () value ()) :
    (Host.none.evaluate steps contracted).Returns () value () := by
  induction contracts generalizing value with
  | distributor p f x =>
      obtain ⟨_, ⟨⟩, spf_returned, call⟩ := ExceptT.returns_bind.mp returned
      obtain ⟨_, ⟨⟩, sp_returned, spf_call⟩ := ExceptT.returns_bind.mp spf_returned
      obtain ⟨_, ⟨⟩, s_returned, sp_call⟩ := ExceptT.returns_bind.mp sp_returned
      obtain ⟨pValue, ⟨⟩, p_returned, sp_call⟩ := ExceptT.returns_bind.mp sp_call
      obtain ⟨fValue, ⟨⟩, f_returned, spf_call⟩ := ExceptT.returns_bind.mp spf_call
      obtain ⟨xValue, ⟨⟩, x_returned, call⟩ := ExceptT.returns_bind.mp call
      cases s_returned
      cases steps with
      | zero => cases sp_call
      | succ steps =>
          cases sp_call
          cases spf_call
          obtain ⟨_, ⟨⟩, px_call, call⟩ := ExceptT.returns_bind.mp call
          obtain ⟨_, ⟨⟩, fx_call, call⟩ := ExceptT.returns_bind.mp call
          have more {fn arg result : Value Empty}
              (called : (Host.none.apply steps fn arg).Returns () result ()) :
              (Host.none.apply (steps + 1) fn arg).Returns () result () :=
            (Host.none.apply_continuedBy steps.le_succ fn arg).returns called
          exact (p_returned.bind (x_returned.bind (more px_call))).bind
            ((f_returned.bind (x_returned.bind (more fx_call))).bind (more call))
  | constant x y =>
      obtain ⟨_, ⟨⟩, kx_returned, call⟩ := ExceptT.returns_bind.mp returned
      obtain ⟨_, ⟨⟩, k_returned, kx_call⟩ := ExceptT.returns_bind.mp kx_returned
      obtain ⟨xValue, ⟨⟩, x_returned, kx_call⟩ := ExceptT.returns_bind.mp kx_call
      obtain ⟨yValue, ⟨⟩, -, call⟩ := ExceptT.returns_bind.mp call
      cases k_returned
      cases steps with
      | zero => cases kx_call
      | succ steps =>
          cases kx_call
          cases call
          exact x_returned
  | identity x =>
      obtain ⟨_, ⟨⟩, i_returned, call⟩ := ExceptT.returns_bind.mp returned
      obtain ⟨xValue, ⟨⟩, x_returned, call⟩ := ExceptT.returns_bind.mp call
      cases i_returned
      cases steps with
      | zero => cases call
      | succ steps =>
          cases call
          exact x_returned
  | inFn arg _ fn_ih =>
      obtain ⟨fn, ⟨⟩, fn_returned, rest⟩ := ExceptT.returns_bind.mp returned
      exact (fn_ih fn_returned).bind rest
  | inArg fn _ arg_ih =>
      obtain ⟨fn, ⟨⟩, fn_returned, rest⟩ := ExceptT.returns_bind.mp returned
      obtain ⟨arg, ⟨⟩, arg_returned, rest⟩ := ExceptT.returns_bind.mp rest
      exact fn_returned.bind ((arg_ih arg_returned).bind rest)

/-- In every host, and without a call of a value of it, both terms evaluate to the same function. So
calls of it on the same arguments have the same outcome: the same result or error, and the same
effect on the state of the host, which may be a record of the calls of its values. -/
def EvaluatesLike (left right : Term) : Prop :=
  ∃ (value : Value Empty) (bound : Nat), ∀ {H σ ε : Type} (host : Host H σ ε) steps,
    bound ≤ steps → ∀ before,
      (host.evaluate steps left).Returns before value.embed before ∧
        (host.evaluate steps right).Returns before value.embed before ∧
          ∀ args, (do host.applyAll steps (← host.evaluate steps left) args).outcome before =
            (do host.applyAll steps (← host.evaluate steps right) args).outcome before

theorem evaluatesLike_of_returns {left right : Term} {steps : Nat} {value : Value Empty}
    (left_returned : (Host.none.evaluate steps left).Returns () value ())
    (right_returned : (Host.none.evaluate steps right).Returns () value ()) :
    left.EvaluatesLike right := by
  refine ⟨value, steps, fun host more enough before => ?_⟩
  have in_host {term : Term} (returned : (Host.none.evaluate steps term).Returns () value ()) :
      (host.evaluate more term).Returns before value.embed before :=
    (host.evaluate_continuedBy enough term).returns (host.evaluate_embed returned before)
  refine ⟨in_host left_returned, in_host right_returned, fun args => ?_⟩
  rw [(in_host left_returned).outcome_bind, (in_host right_returned).outcome_bind]

end Term

/-- An equation used anywhere inside a term that can be built gives a term that can be built as it
is, which has the principal type of the first term as an instance of its own. Both evaluate to the
same function. -/
theorem contraction_preserves_type_and_value (typed : TypedTerm) {contracted : Term}
    (contracts : typed.term.Contracts contracted) :
    ∃ built, TypedTerm.build? contracted = .ok built ∧ built.term = contracted ∧
      typed.type.isInstance built.type = true ∧ typed.term.EvaluatesLike contracted := by
  have derivable := contracts.hasType typed.hasType
  obtain ⟨built, rfl⟩ := TypedTerm.exists_of_hasType derivable
  refine ⟨built, built.build?_term, rfl, TypedTerm.hasType_iff.mp derivable, ?_⟩
  obtain ⟨steps, value, ⟨⟩, returned, -⟩ := Host.none.evaluate_total typed.hasType ()
  exact Term.evaluatesLike_of_returns returned (contracts.evaluate returned)

section Duplication

open Term (apps app S K I)

/-- `K I (x I)` for an argument `x`, which is the identity whatever `x` is. -/
private def ignoring : Term := apps S [app K (app K I), apps S [I, app K I]]

/-- `S` applies a function to two copies of `I`, under `K`. -/
theorem contraction_of_duplication :
    ∃ typed built : TypedTerm, typed.term = app K (apps S [ignoring, I, I]) ∧
      typed.term.Contracts (app K (app (app ignoring I) (app I I))) ∧
        TypedTerm.build? (app K (app (app ignoring I) (app I I))) = .ok built ∧
          built.term = app K (app (app ignoring I) (app I I)) ∧
            typed.type.isInstance built.type = true ∧
              typed.term.EvaluatesLike (app K (app (app ignoring I) (app I I))) := by
  obtain ⟨typed, built⟩ : ∃ typed, TypedTerm.build? (app K (apps S [ignoring, I, I])) = .ok typed :=
    ⟨_, rfl⟩
  have term_eq := TypedTerm.build?_ok_iff.mp built
  have contracts : typed.term.Contracts (app K (app (app ignoring I) (app I I))) := by
    rw [term_eq]
    exact .inArg K (.distributor ignoring I I)
  obtain ⟨contracted, rest⟩ := contraction_preserves_type_and_value typed contracts
  exact ⟨typed, contracted, term_eq, contracts, rest⟩

/-- The two copies have types of their own, so the type becomes more general. -/
example :
    (TypedTerm.build? (apps S [ignoring, I, I])).map TypedTerm.type =
        .ok (.arrow Ty.identity Ty.identity) ∧
      (TypedTerm.build? (app (app ignoring I) (app I I))).map TypedTerm.type = .ok Ty.identity :=
  ⟨rfl, rfl⟩

end Duplication

end Combinatory
