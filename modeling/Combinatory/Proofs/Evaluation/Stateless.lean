import Mathlib.Data.Multiset.AddSub
import Combinatory.Proofs.Evaluation.Parametricity

/-!
# Hosts without memory

A call of a host's function may depend on nothing but its argument. All that such a host needs to
remember is how often each of its functions has been called with what. Then a run adds the same
calls to any record and ends in the same way, so two runs that do not use one another's results can
be exchanged. Runs agree if they complete with the same results and the same calls, in whatever
order, when they are granted enough steps.
-/

namespace Combinatory

/-- A call of a function of the host. -/
structure Call (H : Type) where
  /-- The function. -/
  fn : H
  /-- The argument. -/
  arg : Value H

/-- Functions of a host whose calls depend on nothing but the argument. -/
structure Stateless (H ε : Type) where
  /-- How the call of a function ends. -/
  ending : H → Value H → Except (Interruption ε) (Value H)
  /-- The calls of functions of the host that are made inside a call. -/
  inner : H → Value H → Multiset (Call H)

/-- The host of these functions, which keeps record of all calls. -/
def Stateless.host {H ε : Type} (functions : Stateless H ε) : Host H (Multiset (Call H)) ε where
  call fn arg := do
    modify fun record => record + ({⟨fn, arg⟩} + functions.inner fn arg)
    MonadExcept.ofExcept (functions.ending fn arg)

namespace Effect

variable {C ε α β γ : Type}

/-! ## Runs that do not read the record -/

/-- The run ends in the same way and adds the same to any record. -/
def Uniform (run : Effect (Multiset C) ε α) : Prop :=
  ∃ ending added, ∀ before, run.outcome before = (ending, before + added)

theorem uniform_pure (result : α) : (pure result : Effect (Multiset C) ε α).Uniform :=
  ⟨.ok result, 0, fun before => by rw [ExceptT.outcome_pure, Multiset.add_zero]⟩

theorem uniform_throw (interruption : Interruption ε) :
    (throw interruption : Effect (Multiset C) ε α).Uniform :=
  ⟨.error interruption, 0, fun before => by rw [ExceptT.outcome_throw, Multiset.add_zero]⟩

theorem Uniform.bind {run : Effect (Multiset C) ε α} {next : α → Effect (Multiset C) ε β}
    (first : run.Uniform) (second : ∀ value, (next value).Uniform) : (run >>= next).Uniform := by
  obtain ⟨ending, added, first⟩ := first
  cases ending with
  | error interruption =>
      exact ⟨.error interruption, added, fun before => by rw [ExceptT.outcome_bind, first]⟩
  | ok value =>
      obtain ⟨ending, more, second⟩ := second value
      refine ⟨ending, added + more, fun before => ?_⟩
      rw [ExceptT.outcome_bind, first, ← Multiset.add_assoc]
      exact second _

theorem Uniform.returns {run : Effect (Multiset C) ε α} (uniform : run.Uniform)
    {before after : Multiset C} {result : α} (returned : run.Returns before result after) :
    ∃ added, after = before + added ∧ ∀ record, run.Returns record result (record + added) := by
  obtain ⟨ending, added, outcome_eq⟩ := uniform
  obtain ⟨rfl, rfl⟩ := Prod.mk.inj ((outcome_eq before).symm.trans returned)
  exact ⟨added, rfl, outcome_eq⟩

/-- The runs, each granted a number of steps, do not read the record, and with more steps they go on
where they have used the steps up. -/
structure Steady (run : Nat → Effect (Multiset C) ε α) : Prop where
  /-- They do not read the record. -/
  uniform (steps : Nat) : (run steps).Uniform
  /-- With more steps they go on. -/
  continued {steps more : Nat} (enough : steps ≤ more) : (run steps).ContinuedBy (run more)

theorem steady_pure (result : α) : Steady fun _ => (pure result : Effect (Multiset C) ε α) where
  uniform _ := uniform_pure result
  continued _ := .refl _

theorem Steady.bind {run : Nat → Effect (Multiset C) ε α}
    {next : Nat → α → Effect (Multiset C) ε β} (first : Steady run)
    (second : ∀ value, Steady fun steps => next steps value) :
    Steady fun steps => run steps >>= next steps where
  uniform steps := (first.uniform steps).bind fun value => (second value).uniform steps
  continued enough := (first.continued enough).bind fun value => (second value).continued enough

/-! ## Completion -/

/-- Granted enough steps, the runs return the result and add just these calls to any record. -/
def Completes (run : Nat → Effect (Multiset C) ε α) (result : α) (added : Multiset C) : Prop :=
  ∃ bound, ∀ steps, bound ≤ steps → ∀ before, (run steps).Returns before result (before + added)

/-- One run that returns is enough. -/
theorem Steady.completes {run : Nat → Effect (Multiset C) ε α} (steady : Steady run) {steps : Nat}
    {before added : Multiset C} {result : α}
    (returned : (run steps).Returns before result (before + added)) :
    Completes run result added := by
  obtain ⟨other, same, returns⟩ := (steady.uniform steps).returns returned
  obtain rfl := Multiset.add_right_inj.mp same
  exact ⟨steps, fun more enough record => (steady.continued enough).returns (returns record)⟩

theorem Completes.unique {run : Nat → Effect (Multiset C) ε α} {result other : α}
    {added more : Multiset C} (completes : Completes run result added)
    (others : Completes run other more) : result = other ∧ added = more := by
  obtain ⟨first, returned⟩ := completes
  obtain ⟨second, other_returned⟩ := others
  have same := (returned _ (Nat.le_max_left first second) 0).symm.trans
    (other_returned _ (Nat.le_max_right first second) 0)
  obtain ⟨result_eq, added_eq⟩ := Prod.mk.inj same
  exact ⟨Except.ok.inj result_eq, Multiset.add_right_inj.mp added_eq⟩

/-- Runs one after another complete if each of them does, and add what both of them add. -/
theorem completes_bind_iff {run : Nat → Effect (Multiset C) ε α}
    {next : Nat → α → Effect (Multiset C) ε β} (first : Steady run)
    (second : ∀ value, Steady fun steps => next steps value) {result : β} {added : Multiset C} :
    Completes (fun steps => run steps >>= next steps) result added ↔
      ∃ value one two, Completes run value one ∧
        Completes (fun steps => next steps value) result two ∧ added = one + two := by
  constructor
  · rintro ⟨bound, returned⟩
    obtain ⟨value, middle, first_returned, second_returned⟩ :=
      ExceptT.returns_bind.mp (returned bound le_rfl 0)
    obtain ⟨one, rfl, first_returns⟩ := (first.uniform bound).returns first_returned
    obtain ⟨two, sum_eq, second_returns⟩ := ((second value).uniform bound).returns second_returned
    refine ⟨value, one, two, first.completes (first_returns 0),
      (second value).completes (second_returns 0), ?_⟩
    rwa [Multiset.zero_add, Multiset.zero_add] at sum_eq
  · rintro ⟨value, one, two, ⟨first_bound, first_returned⟩, ⟨second_bound, second_returned⟩, rfl⟩
    refine ⟨max first_bound second_bound, fun steps enough before => ?_⟩
    rw [← Multiset.add_assoc]
    exact (first_returned steps (by omega) before).bind (second_returned steps (by omega) _)

/-! ## Agreement -/

/-- The runs complete with the same results and the same calls. -/
structure Agree (run other : Nat → Effect (Multiset C) ε α) : Prop where
  /-- The first run does not read the record. -/
  left : Steady run
  /-- The second run does not read the record. -/
  right : Steady other
  /-- They complete alike. -/
  completes_iff (result : α) (added : Multiset C) :
    Completes run result added ↔ Completes other result added

section Agree

variable {run other third : Nat → Effect (Multiset C) ε α}

theorem Steady.agree (steady : Steady run) : Agree run run :=
  ⟨steady, steady, fun _ _ => Iff.rfl⟩

theorem Agree.trans (first : Agree run other) (second : Agree other third) : Agree run third where
  left := first.left
  right := second.right
  completes_iff result added :=
    (first.completes_iff result added).trans (second.completes_iff result added)

instance : Trans (@Agree C ε α) Agree Agree := ⟨Agree.trans⟩

theorem completes_succ_iff {result : α} {added : Multiset C} :
    Completes (fun steps => run (steps + 1)) result added ↔ Completes run result added := by
  constructor
  · rintro ⟨bound, returned⟩
    refine ⟨bound + 1, fun steps enough before => ?_⟩
    obtain ⟨fewer, rfl⟩ := Nat.exists_eq_add_of_le' (Nat.le_of_add_left_le enough)
    exact returned fewer (by omega) before
  · rintro ⟨bound, returned⟩
    exact ⟨bound, fun steps enough => returned (steps + 1) (by omega)⟩

theorem Agree.of_succ (run_steady : Steady run) (other_steady : Steady other)
    (same : ∀ steps, run (steps + 1) = other (steps + 1)) : Agree run other := by
  refine ⟨run_steady, other_steady, fun result added => ?_⟩
  rw [← completes_succ_iff, funext same, completes_succ_iff]

theorem Agree.bind {next further : Nat → α → Effect (Multiset C) ε β} (agree : Agree run other)
    (next_agree : ∀ value, Agree (fun steps => next steps value) fun steps => further steps value) :
    Agree (fun steps => run steps >>= next steps) fun steps => other steps >>= further steps := by
  refine ⟨agree.left.bind fun value => (next_agree value).left,
    agree.right.bind fun value => (next_agree value).right, fun result added => ?_⟩
  rw [completes_bind_iff agree.left fun value => (next_agree value).left,
    completes_bind_iff agree.right fun value => (next_agree value).right]
  simp only [agree.completes_iff, (next_agree _).completes_iff]

end Agree

section Exchange

variable {first : Nat → Effect (Multiset C) ε α} {second : Nat → Effect (Multiset C) ε β}
  {next : Nat → α → β → Effect (Multiset C) ε γ}

theorem Completes.exchange (first_steady : Steady first) (second_steady : Steady second)
    (next_steady : ∀ one two, Steady fun steps => next steps one two) {result : γ}
    {added : Multiset C}
    (completes : Completes
      (fun steps => do
        let one ← first steps
        let two ← second steps
        next steps one two) result added) :
    Completes
      (fun steps => do
        let two ← second steps
        let one ← first steps
        next steps one two) result added := by
  obtain ⟨one, firstAdded, _, first_completes, rest_completes, rfl⟩ :=
    (completes_bind_iff first_steady fun one => second_steady.bind (next_steady one)).mp completes
  obtain ⟨two, secondAdded, nextAdded, second_completes, next_completes, rfl⟩ :=
    (completes_bind_iff second_steady (next_steady one)).mp rest_completes
  have rest : Completes (fun steps => do next steps (← first steps) two) result
      (firstAdded + nextAdded) :=
    (completes_bind_iff first_steady fun one => next_steady one two).mpr
      ⟨one, _, _, first_completes, next_completes, rfl⟩
  rw [← Multiset.add_assoc, Multiset.add_comm firstAdded, Multiset.add_assoc]
  exact (completes_bind_iff second_steady fun two =>
    first_steady.bind fun one => next_steady one two).mpr
      ⟨two, _, _, second_completes, rest, rfl⟩

/-- Two runs that do not use one another's results can be exchanged. -/
theorem agree_exchange (first_steady : Steady first) (second_steady : Steady second)
    (next_steady : ∀ one two, Steady fun steps => next steps one two) :
    Agree
      (fun steps => do
        let one ← first steps
        let two ← second steps
        next steps one two)
      (fun steps => do
        let two ← second steps
        let one ← first steps
        next steps one two) where
  left := first_steady.bind fun one => second_steady.bind (next_steady one)
  right := second_steady.bind fun two => first_steady.bind fun one => next_steady one two
  completes_iff _ _ :=
    ⟨.exchange first_steady second_steady next_steady,
      .exchange second_steady first_steady fun two one => next_steady one two⟩

end Exchange

end Effect

/-! ## Calls and evaluation -/

namespace Stateless

open Effect (Uniform Steady Agree)

variable {H ε : Type} (functions : Stateless H ε)

theorem uniform_call (fn : H) (arg : Value H) : (functions.host.call fn arg).Uniform :=
  ⟨functions.ending fn arg, {⟨fn, arg⟩} + functions.inner fn arg,
    fun before => ExceptT.outcome_ofExcept (functions.ending fn arg) (before + _)⟩

theorem uniform_apply (steps : Nat) (fn arg : Value H) :
    (functions.host.apply steps fn arg).Uniform := by
  induction steps generalizing fn arg with
  | zero => exact Effect.uniform_throw _
  | succ steps ih =>
      cases fn with
      | host own => exact functions.uniform_call own arg
      | distribute p f => exact (ih p arg).bind fun fn => (ih f arg).bind fun arg => ih fn arg
      | _ => exact Effect.uniform_pure _

theorem steady_apply (fn arg : Value H) :
    Steady fun steps => functions.host.apply steps fn arg where
  uniform steps := functions.uniform_apply steps fn arg
  continued enough := functions.host.apply_continuedBy enough fn arg

theorem steady_applyAll (fn : Value H) (args : List (Value H)) :
    Steady fun steps => functions.host.applyAll steps fn args := by
  induction args generalizing fn with
  | nil => exact Effect.steady_pure fn
  | cons arg args ih => exact (functions.steady_apply fn arg).bind ih

theorem steady_evaluate (term : Term) :
    Steady fun steps => functions.host.evaluate steps term := by
  induction term with
  | app fn arg fn_ih arg_ih =>
      exact fn_ih.bind fun fn => arg_ih.bind fun arg => functions.steady_apply fn arg
  | _ => exact Effect.steady_pure _

/-- A distribution calls both functions on the argument, and the one result on the other. -/
theorem agree_distribute (p f x : Value H) :
    Agree (fun steps => functions.host.apply steps (.distribute p f) x)
      (fun steps => do
        let fn ← functions.host.apply steps p x
        let arg ← functions.host.apply steps f x
        functions.host.apply steps fn arg) where
  left := functions.steady_apply _ x
  right := (functions.steady_apply p x).bind fun fn => (functions.steady_apply f x).bind fun arg =>
    functions.steady_apply fn arg
  completes_iff _ _ := Effect.completes_succ_iff.symm

end Stateless
end Combinatory
