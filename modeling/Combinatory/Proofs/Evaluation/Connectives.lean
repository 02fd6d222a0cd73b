import Combinatory.Proofs.Evaluation.Selection

/-!
# Boolean operators on selectors

Negation swaps the arguments of a selector. An operator on two selectors hands the second one, or
something made of it, to the first one, which chooses between that and another selector. So what it
makes of a second operand is known from what the first one selects, whatever the second operand is,
and the second operand is not called for it.
-/

namespace Combinatory

namespace Value

variable {H : Type}

/-- The selector of the first of two values. -/
def truth : Value H := .constant

/-- The selector of the second of two values. -/
def falsehood : Value H := .constantly .identity

/-- The function with its first two arguments swapped. -/
def swapped (p : Value H) : Value H := .distribute (.constantly (.distributing p)) .constant

end Value

namespace Host

variable {H σ ε : Type} {host : Host H σ ε} {steps : Nat}

theorem selects_truth : host.Selects (steps + 1) .truth true :=
  fun first => ⟨.constantly first, fun _ => rfl, fun _ _ => rfl⟩

theorem selects_falsehood : host.Selects (steps + 1) .falsehood false :=
  fun _ => ⟨.identity, fun _ => rfl, fun _ _ => rfl⟩

/-- Swapped, a selector chooses the other value. -/
theorem Selects.swapped {selector : Value H} {flag : Bool}
    (selects : host.Selects steps selector flag) :
    host.Selects (steps + 2) selector.swapped !flag := by
  intro first
  refine ⟨.distribute selector (.constantly first), fun _ => rfl, fun second before => ?_⟩
  obtain ⟨chooser, chooser_returned, chosen⟩ :=
    selects.exists_chooser (Nat.le_succ steps) (Nat.le_succ steps) second
  have choice : (if !flag then first else second) = if flag then second else first := by
    cases flag <;> rfl
  rw [choice]
  exact (chooser_returned before).bind (chosen first before)

end Host

/-- An operator on two truth values. -/
inductive Connective where
  /-- Are both true? -/
  | conjunction
  /-- Is one of them true? -/
  | disjunction
  /-- Is exactly one of them true? -/
  | exclusion

namespace Connective

/-- The term of the library for the operator. -/
def term : Connective → Term
  | conjunction => Library.conjunction
  | disjunction => Library.disjunction
  | exclusion => Library.exclusion

/-- The truth value of two operands together. -/
def compute : Connective → Bool → Bool → Bool
  | conjunction => and
  | disjunction => or
  | exclusion => xor

variable {H σ ε : Type}

/-- What the operator makes of its second operand, when the truth value of the first one is
known. -/
def answer (connective : Connective) (flag : Bool) (second : Value H) : Value H :=
  match connective with
  | conjunction => if flag then second else .falsehood
  | disjunction => if flag then .truth else second
  | exclusion => if flag then second.swapped else second

theorem embed_answer (connective : Connective) (flag : Bool) (second : Value Empty) :
    ((connective.answer flag second).embed : Value H) = connective.answer flag second.embed := by
  cases connective <;> cases flag <;> rfl

variable {host : Host H σ ε} {steps : Nat} {flag : Bool}

/-- The answer to a selector is a selector of the truth value of both. -/
theorem selects_answer (connective : Connective) {second : Value H} {secondFlag : Bool}
    (selects : host.Selects steps second secondFlag) :
    host.Selects (steps + 2) (connective.answer flag second)
      (connective.compute flag secondFlag) := by
  have same := selects.mono (Nat.le_add_right steps 2)
  cases connective with
  | conjunction =>
      cases flag with
      | false => exact Host.selects_falsehood
      | true => exact same
  | disjunction =>
      cases flag with
      | false => exact same
      | true => exact Host.selects_truth
  | exclusion =>
      cases flag with
      | false => cases secondFlag <;> exact same
      | true => cases secondFlag <;> exact selects.swapped

/-- The operator, called on a selector, returns a function that returns the answer to any second
operand. The calls leave the state alone, so the second operand is not called. -/
theorem exists_calls (connective : Connective) {first : Value H}
    (selects : host.Selects steps first flag) :
    ∃ fn partialFn,
      (∀ before, (host.evaluate (steps + 6) connective.term).Returns before fn before) ∧
        (∀ before, (host.apply (steps + 6) fn first).Returns before partialFn before) ∧
          ∀ second before, (host.apply (steps + 6) partialFn second).Returns before
            (connective.answer flag second) before := by
  have enough (extra : Nat) : steps ≤ steps + extra := Nat.le_add_right _ _
  -- Until an operand is called, what the operator does computes, whatever the operands are.
  cases connective with
  | conjunction =>
      refine ⟨_, _, fun _ => rfl, fun _ => rfl, fun second before => ?_⟩
      obtain ⟨chooser, chooser_returned, chosen⟩ :=
        selects.exists_chooser (enough 5) (enough 4) second
      exact (chooser_returned before).bind (chosen .falsehood before)
  | disjunction =>
      obtain ⟨chooser, chooser_returned, chosen⟩ :=
        selects.exists_chooser (enough 5) (enough 6) .truth
      exact ⟨_, chooser, fun _ => rfl, chooser_returned, chosen⟩
  | exclusion =>
      refine ⟨_, _, fun _ => rfl, fun _ => rfl, fun second before => ?_⟩
      obtain ⟨chooser, chooser_returned, chosen⟩ :=
        selects.exists_chooser (enough 4) (enough 5) second.swapped
      exact (chooser_returned before).bind (chosen second before)

end Connective

namespace Term.SelectorForm

/-- The selector for a truth value. -/
def constant (flag : Bool) : (Library.selector flag).SelectorForm where
  value := if flag then .truth else .falsehood
  flag := flag
  bound := 1
  evaluates host steps enough before := by
    obtain ⟨fewer, rfl⟩ := Nat.exists_eq_add_of_le' enough
    cases flag <;> rfl
  selects host steps enough := by
    obtain ⟨fewer, rfl⟩ := Nat.exists_eq_add_of_le' enough
    cases flag with
    | false => exact Host.selects_falsehood
    | true => exact Host.selects_truth

/-- The negation of a term that evaluates to a selector. -/
def negated {term : Term} (form : term.SelectorForm) :
    (app Library.negation term).SelectorForm where
  value := form.value.swapped
  flag := !form.flag
  bound := form.bound + 6
  evaluates host steps enough before := by
    obtain ⟨fewer, rfl⟩ := Nat.exists_eq_add_of_le' enough
    have evaluated := form.evaluates host (fewer + (form.bound + 6)) (by omega) before
    exact ExceptT.Returns.bind rfl (evaluated.bind rfl)
  selects host steps enough := by
    exact (form.selects host form.bound le_rfl).swapped.mono (by omega)

/-- An operator applied to two terms that evaluate to selectors. -/
def connected (connective : Connective) {first second : Term} (left : first.SelectorForm)
    (right : second.SelectorForm) : (apps connective.term [first, second]).SelectorForm where
  value := connective.answer left.flag right.value
  flag := connective.compute left.flag right.flag
  bound := left.bound + right.bound + 6
  evaluates host steps enough before := by
    obtain ⟨fewer, rfl⟩ := Nat.exists_eq_add_of_le' (Nat.le_of_add_left_le enough)
    obtain ⟨fn, partialFn, fn_returned, partial_returned, answered⟩ :=
      connective.exists_calls (left.selects host fewer (by omega))
    have left_returned := left.evaluates host (fewer + 6) (by omega) before
    have right_returned := right.evaluates host (fewer + 6) (by omega) before
    rw [Connective.embed_answer]
    exact ((fn_returned before).bind (left_returned.bind (partial_returned before))).bind
      (right_returned.bind (answered _ before))
  selects host steps enough := by
    rw [Connective.embed_answer]
    exact (connective.selects_answer (right.selects host right.bound le_rfl)).mono (by omega)

end Term.SelectorForm
end Combinatory
