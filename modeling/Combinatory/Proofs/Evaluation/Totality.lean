import Combinatory.Proofs.Evaluation.Parametricity

/-!
# Typed terms evaluate

Untyped terms can call on and on, typed ones cannot. A function is total at a type if its calls on
arguments that are total at the domain return values that are total at the codomain, whatever the
state. These are the values that realize the type where a variable stands for all values, so every
term evaluates to a value that is total at all its types.
-/

namespace Combinatory

/-! ## Types as propositions -/

namespace Ty

/-- The type read as a proposition about the truth of its variables. -/
def Holds (truth : String → Prop) : Ty → Prop
  | var name => truth name
  | arrow dom cod => dom.Holds truth → cod.Holds truth

theorem holds_bind {truth : String → Prop} {replacement : String → Ty} {type : Ty} :
    (type.bind replacement).Holds truth ↔
      type.Holds fun name => (replacement name).Holds truth := by
  induction type with
  | var name => rfl
  | arrow dom cod dom_ih cod_ih => simp [bind, Holds, dom_ih, cod_ih]

end Ty

namespace Term

/-- The types of terms are true propositions. -/
theorem HasType.holds {term : Term} {type : Ty} (typed : term.HasType type)
    (truth : String → Prop) : type.Holds truth := by
  induction typed with
  | distributor instances =>
      rw [Ty.holds_bind]
      exact fun p f x => p x (f x)
  | constant instances =>
      rw [Ty.holds_bind]
      exact fun x _ => x
  | identity instances =>
      rw [Ty.holds_bind]
      exact fun x => x
  | app fn_typed arg_typed fn_ih arg_ih => exact fn_ih arg_ih

/-- No term has all types, so every type of a term is a function type. -/
theorem HasType.isArrow {term : Term} {type : Ty} (typed : term.HasType type) :
    type.isArrow = true := by
  cases type with
  | var name => exact (typed.holds fun _ => False).elim
  | arrow dom cod => rfl

end Term

namespace Host

variable {H σ ε : Type}

/-! ## Total values -/

/-- Calls of the value return, as its type says: any value will do at a variable, and at a function
type all calls on total arguments return total results, from whatever state they start. -/
def Total (host : Host H σ ε) : Ty → Value H → Prop
  | .var _, _ => True
  | .arrow dom cod, fn =>
      ∀ arg, host.Total dom arg → ∀ before, ∃ steps result after,
        (host.apply steps fn arg).Returns before result after ∧ host.Total cod result

theorem total_eq_realizes (host : Host H σ ε) : host.Total = host.Realizes fun _ _ => True := by
  funext type
  induction type with
  | var name => rfl
  | arrow dom cod dom_ih cod_ih =>
      funext fn
      simp only [Total, Realizes, dom_ih, cod_ih]

variable {host : Host H σ ε}

theorem total_constant (kept dropped : Ty) :
    host.Total (.arrow kept (.arrow dropped kept)) .constant := by
  rw [total_eq_realizes]
  exact realizes_constant kept dropped

/-- A term evaluates to a value that is total at its type. -/
theorem evaluate_total (host : Host H σ ε) {term : Term} {type : Ty} (typed : term.HasType type)
    (before : σ) :
    ∃ steps value after, (host.evaluate steps term).Returns before value after ∧
      host.Total type value := by
  rw [total_eq_realizes]
  exact host.evaluate_realizes _ typed before

/-- A total function returns from calls on any number of total arguments in turn. -/
theorem Total.applyAll {domains : List Ty} {result : Ty} {fn : Value H} {args : List (Value H)}
    (fn_total : host.Total (Ty.arrows domains result) fn)
    (args_total : List.Forall₂ host.Total domains args) (before : σ) :
    ∃ steps value after, (host.applyAll steps fn args).Returns before value after ∧
      host.Total result value := by
  rw [total_eq_realizes] at *
  exact Realizes.applyAll fn_total args_total before

end Host

/-! ## Values without a host -/

/-- A value that holds nothing of a host, as it is in any host. -/
def Value.embed {H : Type} : Value Empty → Value H
  | .identity => .identity
  | .constant => .constant
  | .constantly x => .constantly x.embed
  | .distributor => .distributor
  | .distributing p => .distributing p.embed
  | .distribute p f => .distribute p.embed f.embed

theorem Value.embed_eq_replace {H : Type} (value : Value Empty) :
    (value.embed : Value H) = value.replace nofun := by
  induction value with
  | host own => exact own.elim
  | constantly x x_ih => simp only [embed, replace, x_ih]
  | distributing p p_ih => simp only [embed, replace, p_ih]
  | distribute p f p_ih f_ih => simp only [embed, replace, p_ih, f_ih]
  | _ => rfl

namespace Host

variable {H σ ε : Type}

/-- The host that has no values of its own. -/
def none : Host Empty Unit Empty where
  call := nofun

theorem refuses_none : none.Refuses := nofun

/-- A term that evaluates without a host evaluates to the same in every host. -/
theorem evaluate_embed (host : Host H σ ε) {steps : Nat} {term : Term} {value : Value Empty}
    (returned : (none.evaluate steps term).Returns () value ()) (before : σ) :
    (host.evaluate steps term).Returns before value.embed before := by
  rw [Value.embed_eq_replace]
  exact refuses_none.evaluate_replace host nofun returned before

end Host

/--
The type of a typed term is a function type, and its evaluation returns a function that holds
nothing of any host, in every host alike and without a call of a host's value. At every instance of
its type, calls of the function on total arguments return total results.
-/
theorem typed_evaluation_total (typed : TypedTerm) :
    typed.type.isArrow = true ∧
      (∃ (value : Value Empty) (bound : Nat), ∀ {H σ ε : Type} (host : Host H σ ε) steps,
        bound ≤ steps → ∀ before,
          (host.evaluate steps typed.term).Returns before value.embed before) ∧
      ∀ {H σ ε : Type} (host : Host H σ ε) domains result args,
        (Ty.arrows domains result).isInstance typed.type = true →
          List.Forall₂ host.Total domains args → ∀ before, ∃ bound value after,
            host.Total result value ∧ ∀ steps, bound ≤ steps →
              (do host.applyAll steps (← host.evaluate steps typed.term) args).Returns
                before value after := by
  refine ⟨typed.hasType.isArrow, ?_, ?_⟩
  · obtain ⟨bound, value, ⟨⟩, returned, -⟩ := Host.none.evaluate_total typed.hasType ()
    refine ⟨value, bound, fun host steps enough before => ?_⟩
    exact (host.evaluate_continuedBy enough _).returns (host.evaluate_embed returned before)
  · intro H σ ε host domains result args instance_of args_total before
    have type_derivable : typed.term.HasType (Ty.arrows domains result) :=
      (typed.isPrincipal _).mpr (Ty.isInstance_iff.mp instance_of)
    obtain ⟨fn_steps, fn, middle, evaluated, fn_total⟩ := host.evaluate_total type_derivable before
    obtain ⟨call_steps, value, after, called, value_total⟩ := fn_total.applyAll args_total middle
    refine ⟨max fn_steps call_steps, value, after, value_total, fun steps enough => ?_⟩
    have evaluated := (host.evaluate_continuedBy (by omega : fn_steps ≤ steps) _).returns evaluated
    have more := host.applyAll_continuedBy (by omega : call_steps ≤ steps) fn args
    have called := more.returns called
    exact evaluated.bind called

/-- A host with one value, which hands its argument back and counts its calls. -/
def Host.counting : Host Unit Nat Empty where
  call _ arg := do
    modify (· + 1)
    return arg

/-- `S K` called on a counting function and another value. -/
theorem distributed_constant_total :
    (Ty.arrows [Ty.constant, .arrow (.var "a") (.var "b"), .var "a"] (.var "a")).isInstance
        TypedTerm.S.type = true ∧
      List.Forall₂ Host.counting.Total [Ty.constant, .arrow (.var "a") (.var "b"), .var "a"]
        [.constant, .host (), .identity] ∧
      ∃ bound value after, Host.counting.Total (.var "a") value ∧ ∀ steps, bound ≤ steps →
        (do Host.counting.applyAll steps (← Host.counting.evaluate steps TypedTerm.S.term)
              [.constant, .host (), .identity]).Returns 0 value after := by
  have fits : (Ty.arrows [Ty.constant, .arrow (.var "a") (.var "b"), .var "a"]
      (.var "a")).isInstance TypedTerm.S.type = true := by decide +kernel
  have counting_total : Host.counting.Total (.arrow (.var "a") (.var "b")) (.host ()) :=
    fun arg _ before => ⟨1, arg, before + 1, rfl, trivial⟩
  have args_total : List.Forall₂ Host.counting.Total
      [Ty.constant, .arrow (.var "a") (.var "b"), .var "a"] [.constant, .host (), .identity] :=
    .cons (Host.total_constant _ _) (.cons counting_total (.cons trivial .nil))
  exact ⟨fits, args_total,
    (typed_evaluation_total TypedTerm.S).2.2 Host.counting _ _ _ fits args_total 0⟩

end Combinatory
