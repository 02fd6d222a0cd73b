import Combinatory.Evaluation.Value
import Combinatory.Proofs.Evaluation.Effect
import Combinatory.Proofs.Term.Principal

/-!
# Terms treat the values of a host alike

Let every type variable stand for a set of values. A function realizes a type if its calls on values
that realize the domain return values that realize the codomain. Every term evaluates to a value
that realizes all its types, whatever sets the variables stand for, by induction on the derivation:
the type of `S` promises just what its three calls need. A run in which no value of a host is called
goes the same way in every other host, with other values in the place of those.
-/

namespace Combinatory

namespace Host

variable {H σ ε : Type}

/-! ## More steps -/

theorem apply_continuedBy (host : Host H σ ε) {steps more : Nat} (enough : steps ≤ more)
    (fn arg : Value H) : (host.apply steps fn arg).ContinuedBy (host.apply more fn arg) := by
  induction steps generalizing more fn arg with
  | zero => exact Effect.continuedBy_of_unfinished _
  | succ steps ih =>
      obtain ⟨more, rfl⟩ := Nat.exists_eq_add_of_le' (Nat.le_of_add_left_le enough)
      have fewer : steps ≤ more := by omega
      cases fn with
      | distribute p f =>
          exact (ih fewer p arg).bind fun fn => (ih fewer f arg).bind fun arg => ih fewer fn arg
      | _ => exact .refl _

theorem applyAll_continuedBy (host : Host H σ ε) {steps more : Nat} (enough : steps ≤ more)
    (fn : Value H) (args : List (Value H)) :
    (host.applyAll steps fn args).ContinuedBy (host.applyAll more fn args) := by
  induction args generalizing fn with
  | nil => exact .refl _
  | cons arg args ih => exact (host.apply_continuedBy enough fn arg).bind ih

theorem evaluate_continuedBy (host : Host H σ ε) {steps more : Nat} (enough : steps ≤ more)
    (term : Term) : (host.evaluate steps term).ContinuedBy (host.evaluate more term) := by
  induction term with
  | S => exact .refl _
  | K => exact .refl _
  | I => exact .refl _
  | app fn arg fn_ih arg_ih =>
      exact fn_ih.bind fun fn => arg_ih.bind fun arg => host.apply_continuedBy enough fn arg

/-! ## Types as sets of values -/

/-- The value is as its type says, where the meaning of a type variable is a set of values: at a
function type all calls on arguments that realize the domain return results that realize the
codomain, from whatever state they start. -/
def Realizes (host : Host H σ ε) (meaning : String → Value H → Prop) : Ty → Value H → Prop
  | .var name, value => meaning name value
  | .arrow dom cod, fn =>
      ∀ arg, host.Realizes meaning dom arg → ∀ before, ∃ steps result after,
        (host.apply steps fn arg).Returns before result after ∧ host.Realizes meaning cod result

variable {host : Host H σ ε} {meaning : String → Value H → Prop}

/-- A call that just returns a value that realizes the codomain. -/
theorem realizes_arrow_of_pure {dom cod : Ty} {fn : Value H} (answer : Value H → Value H)
    (pure_call : ∀ arg, host.apply 1 fn arg = pure (answer arg))
    (realizes : ∀ arg, host.Realizes meaning dom arg → host.Realizes meaning cod (answer arg)) :
    host.Realizes meaning (.arrow dom cod) fn :=
  fun arg arg_realizes before =>
    ⟨1, answer arg, before, by rw [pure_call, ExceptT.returns_pure]; exact ⟨rfl, rfl⟩,
      realizes arg arg_realizes⟩

theorem realizes_identity (type : Ty) :
    host.Realizes meaning (.arrow type type) .identity :=
  realizes_arrow_of_pure id (fun _ => rfl) fun _ realizes => realizes

theorem realizes_constant (kept dropped : Ty) :
    host.Realizes meaning (.arrow kept (.arrow dropped kept)) .constant :=
  realizes_arrow_of_pure .constantly (fun _ => rfl) fun x x_realizes =>
    realizes_arrow_of_pure (fun _ => x) (fun _ => rfl) fun _ _ => x_realizes

/-- The three calls of a distribution return, each with the steps that it needs. -/
theorem realizes_distribute {dom middle cod : Ty} {p f : Value H}
    (p_realizes : host.Realizes meaning (.arrow dom (.arrow middle cod)) p)
    (f_realizes : host.Realizes meaning (.arrow dom middle) f) :
    host.Realizes meaning (.arrow dom cod) (.distribute p f) := by
  intro x x_realizes before
  obtain ⟨p_steps, fn, after_p, fn_returns, fn_realizes⟩ := p_realizes x x_realizes before
  obtain ⟨f_steps, arg, after_f, arg_returns, arg_realizes⟩ := f_realizes x x_realizes after_p
  obtain ⟨call_steps, result, after, returns, result_realizes⟩ :=
    fn_realizes arg arg_realizes after_f
  let steps := max p_steps (max f_steps call_steps)
  have fn_returns := (host.apply_continuedBy (by omega : p_steps ≤ steps) p x).returns fn_returns
  have arg_returns := (host.apply_continuedBy (by omega : f_steps ≤ steps) f x).returns arg_returns
  have returns := (host.apply_continuedBy (by omega : call_steps ≤ steps) fn arg).returns returns
  exact ⟨steps + 1, result, after, fn_returns.bind (arg_returns.bind returns), result_realizes⟩

theorem realizes_distributor (dom middle cod : Ty) :
    host.Realizes meaning
      (.arrow (.arrow dom (.arrow middle cod)) (.arrow (.arrow dom middle) (.arrow dom cod)))
      .distributor :=
  realizes_arrow_of_pure .distributing (fun _ => rfl) fun p p_realizes =>
    realizes_arrow_of_pure (.distribute p) (fun _ => rfl) fun _ f_realizes =>
      realizes_distribute p_realizes f_realizes

/-- A term evaluates to a value that realizes its type. -/
theorem evaluate_realizes (host : Host H σ ε) (meaning : String → Value H → Prop) {term : Term}
    {type : Ty} (typed : term.HasType type) (before : σ) :
    ∃ steps value after, (host.evaluate steps term).Returns before value after ∧
      host.Realizes meaning type value := by
  induction typed generalizing before with
  | distributor instances => exact ⟨0, _, before, rfl, realizes_distributor _ _ _⟩
  | constant instances => exact ⟨0, _, before, rfl, realizes_constant _ _⟩
  | identity instances => exact ⟨0, _, before, rfl, realizes_identity _⟩
  | @app fn arg dom cod fn_typed arg_typed fn_ih arg_ih =>
      obtain ⟨fn_steps, fn_value, after_fn, fn_returns, fn_realizes⟩ := fn_ih before
      obtain ⟨arg_steps, arg_value, after_arg, arg_returns, arg_realizes⟩ := arg_ih after_fn
      obtain ⟨call_steps, result, after, returns, result_realizes⟩ :=
        fn_realizes arg_value arg_realizes after_arg
      let steps := max fn_steps (max arg_steps call_steps)
      have fn_returns :=
        (host.evaluate_continuedBy (by omega : fn_steps ≤ steps) fn).returns fn_returns
      have arg_returns :=
        (host.evaluate_continuedBy (by omega : arg_steps ≤ steps) arg).returns arg_returns
      have returns := (host.apply_continuedBy (by omega : call_steps ≤ steps) _ _).returns returns
      exact ⟨steps, result, after, fn_returns.bind (arg_returns.bind returns), result_realizes⟩

/-- A function returns from calls on any number of arguments in turn that realize its domains. -/
theorem Realizes.applyAll {domains : List Ty} {result : Ty} {fn : Value H}
    {args : List (Value H)} (fn_realizes : host.Realizes meaning (Ty.arrows domains result) fn)
    (args_realize : List.Forall₂ (host.Realizes meaning) domains args) (before : σ) :
    ∃ steps value after, (host.applyAll steps fn args).Returns before value after ∧
      host.Realizes meaning result value := by
  induction args_realize generalizing fn before with
  | nil => exact ⟨0, fn, before, rfl, fn_realizes⟩
  | @cons dom arg domains args arg_realizes _ ih =>
      obtain ⟨call_steps, value, middle, call_returns, value_realizes⟩ :=
        fn_realizes arg arg_realizes before
      obtain ⟨rest_steps, last, after, rest_returns, last_realizes⟩ := ih value_realizes middle
      let steps := max call_steps rest_steps
      have call_returns :=
        (host.apply_continuedBy (by omega : call_steps ≤ steps) fn arg).returns call_returns
      have rest_returns :=
        (host.applyAll_continuedBy (by omega : rest_steps ≤ steps) value args).returns rest_returns
      exact ⟨steps, last, after, call_returns.bind rest_returns, last_realizes⟩

end Host

/-! ## Other values for those of a host -/

/-- The value with other values in the place of those of a host. -/
def Value.replace {H K : Type} (replacement : H → Value K) : Value H → Value K
  | .host value => replacement value
  | .identity => .identity
  | .constant => .constant
  | .constantly x => .constantly (x.replace replacement)
  | .distributor => .distributor
  | .distributing p => .distributing (p.replace replacement)
  | .distribute p f => .distribute (p.replace replacement) (f.replace replacement)

namespace Host

variable {H K σ τ ε δ : Type}

/-- No call of a value of the host returns. -/
def Refuses (host : Host H σ ε) : Prop :=
  ∀ fn arg before result after, ¬ (host.call fn arg).Returns before result after

variable {refusing : Host H σ ε}

/-- A call that returns where the host refuses all calls of its values has not called any. So it
returns the same in every host, other values replaced, and leaves the state alone. -/
theorem Refuses.apply_replace (refuses : refusing.Refuses) (host : Host K τ δ)
    (replacement : H → Value K) {steps : Nat} {fn arg value : Value H} {before after : σ}
    (returned : (refusing.apply steps fn arg).Returns before value after) (state : τ) :
    (host.apply steps (fn.replace replacement) (arg.replace replacement)).Returns state
      (value.replace replacement) state := by
  induction steps generalizing fn arg value before after with
  | zero => cases returned
  | succ steps ih =>
      cases fn with
      | host own => exact (refuses _ _ _ _ _ returned).elim
      | distribute p f =>
          obtain ⟨fn, _, fn_returned, returned⟩ := ExceptT.returns_bind.mp returned
          obtain ⟨arg, _, arg_returned, returned⟩ := ExceptT.returns_bind.mp returned
          exact (ih fn_returned).bind ((ih arg_returned).bind (ih returned))
      | _ =>
          obtain ⟨rfl, -⟩ := ExceptT.returns_pure.mp returned
          rfl

/-- A term that evaluates where the host refuses all calls of its values evaluates to the same in
every host. -/
theorem Refuses.evaluate_replace (refuses : refusing.Refuses) (host : Host K τ δ)
    (replacement : H → Value K) {steps : Nat} {term : Term} {value : Value H} {before after : σ}
    (returned : (refusing.evaluate steps term).Returns before value after) (state : τ) :
    (host.evaluate steps term).Returns state (value.replace replacement) state := by
  induction term generalizing value before after with
  | app fn arg fn_ih arg_ih =>
      obtain ⟨fn, _, fn_returned, returned⟩ := ExceptT.returns_bind.mp returned
      obtain ⟨arg, _, arg_returned, returned⟩ := ExceptT.returns_bind.mp returned
      exact (fn_ih fn_returned).bind
        ((arg_ih arg_returned).bind (refuses.apply_replace host replacement returned state))
  | _ =>
      obtain ⟨rfl, -⟩ := ExceptT.returns_pure.mp returned
      rfl

end Host
end Combinatory
