import Combinatory.Proofs.Evaluation.Connectives
import Combinatory.Proofs.Program.Choice

/-!
# Boolean formulas as terms

The boolean operators use their first operand at the type of selectors of selectors. A term with the
type of selectors has this type too, with another payload, so formulas can be nested at will. They
can be built, have the type of selectors again, and the truth value of the formula is read off them.
-/

namespace Combinatory

/-! ## Documented types -/

namespace Library

/-- The documented type can be derived for an entry that passes its check. -/
theorem hasType_of_typed? {entry : Entry} (checked : entry.typed?.isSome = true) :
    entry.term.HasType entry.type := by
  obtain ⟨annotated, made⟩ := Option.isSome_iff_exists.mp checked
  obtain ⟨typed, inferred, annotates⟩ := Option.bind_eq_some_iff.mp made
  have term_eq : typed.term = entry.term := by
    cases outcome : TypedTerm.ofTerm? entry.term with
    | error refusal => simp [outcome, Except.toOption] at inferred
    | ok other =>
        simp only [outcome, Except.toOption, Option.some.injEq] at inferred
        exact inferred ▸ TypedTerm.ofTerm?_ok_iff.mp outcome
  rw [← term_eq, TypedTerm.hasType_iff]
  unfold TypedTerm.annotate? at annotates
  split at annotates
  · assumption
  · cases annotates

/-- Every entry of the library has its documented type. -/
theorem hasType_of_mem {entry : Entry} (listed : entry ∈ entries) :
    entry.term.HasType entry.type := by
  have all_checked : entries.all fun entry => entry.typed?.isSome := by decide +kernel
  exact hasType_of_typed? (List.all_eq_true.mp all_checked entry listed)

theorem hasType_negation (payload : Ty) :
    negation.HasType (.arrow (.bool payload) (.bool payload)) := by
  have listed :
      ⟨"not", negation, .arrow (.bool (.var "a")) (.bool (.var "a"))⟩ ∈ entries := by
    simp [entries]
  exact (hasType_of_mem listed).bind fun _ => payload

theorem hasType_selector (flag : Bool) : (selector flag).HasType (.bool (.var "a")) := by
  cases flag with
  | false =>
      have listed : ⟨"false", falsehood, .bool (.var "a")⟩ ∈ entries := by simp [entries]
      exact hasType_of_mem listed
  | true =>
      have listed : ⟨"true", truth, .bool (.var "a")⟩ ∈ entries := by simp [entries]
      exact hasType_of_mem listed

end Library

theorem Connective.hasType (connective : Connective) (payload : Ty) :
    connective.term.HasType
      (Ty.arrows [.bool (.bool payload), .bool payload] (.bool payload)) := by
  let documented := Ty.arrows [.bool (.bool (.var "a")), .bool (.var "a")] (.bool (.var "a"))
  obtain ⟨name, listed⟩ : ∃ name, ⟨name, connective.term, documented⟩ ∈ Library.entries := by
    cases connective with
    | conjunction => exact ⟨"and", by simp [Library.entries, term, documented]⟩
    | disjunction => exact ⟨"or", by simp [Library.entries, term, documented]⟩
    | exclusion => exact ⟨"xor", by simp [Library.entries, term, documented]⟩
  exact (Library.hasType_of_mem listed).bind fun _ => payload

/-! ## Terms for truth values -/

namespace Term

/-- The term can be built as it is, has the type of selectors, and the flag is read off it. -/
def Encodes (term : Term) (flag : Bool) : Prop :=
  ∃ typed, TypedTerm.build? term = .ok typed ∧ typed.term = term ∧
    (Ty.bool (.var "a")).isInstance typed.type = true ∧ term.DecodesTo flag

theorem SelectorForm.encodes {term : Term} (form : term.SelectorForm)
    (derivable : term.HasType (.bool (.var "a"))) : term.Encodes form.flag := by
  obtain ⟨typed, rfl⟩ := TypedTerm.exists_of_hasType derivable
  exact ⟨typed, typed.build?_term, rfl, TypedTerm.hasType_iff.mp derivable, form.decodesTo⟩

/-- A term with the type of selectors has it at every payload. -/
theorem HasType.bool {term : Term} (typed : term.HasType (.bool (.var "a"))) (payload : Ty) :
    term.HasType (.bool payload) :=
  typed.bind fun _ => payload

theorem HasType.negated {term : Term} (typed : term.HasType (.bool (.var "a"))) :
    (Term.app Library.negation term).HasType (.bool (.var "a")) :=
  .app (Library.hasType_negation _) typed

theorem HasType.connected {first second : Term} (connective : Connective)
    (first_typed : first.HasType (.bool (.var "a")))
    (second_typed : second.HasType (.bool (.var "a"))) :
    (apps connective.term [first, second]).HasType (.bool (.var "a")) :=
  .app (.app (connective.hasType _) (first_typed.bool _)) second_typed

end Term

/-- A boolean formula. -/
inductive Formula where
  /-- A truth value. -/
  | constant (flag : Bool)
  /-- The negation of a formula. -/
  | negated (formula : Formula)
  /-- An operator on two formulas. -/
  | connected (connective : Connective) (left right : Formula)

namespace Formula

/-- The term for a formula. -/
def term : Formula → Term
  | constant flag => Library.selector flag
  | negated formula => .app Library.negation formula.term
  | connected connective left right => .apps connective.term [left.term, right.term]

/-- The truth value of a formula. -/
def truth : Formula → Bool
  | constant flag => flag
  | negated formula => !formula.truth
  | connected connective left right => connective.compute left.truth right.truth

theorem hasType (formula : Formula) : formula.term.HasType (.bool (.var "a")) := by
  induction formula with
  | constant flag => exact Library.hasType_selector flag
  | negated formula ih => exact ih.negated
  | connected connective left right left_ih right_ih => exact left_ih.connected connective right_ih

/-- The term for a formula evaluates to a selector of its truth value. -/
theorem exists_selectorForm (formula : Formula) :
    ∃ form : formula.term.SelectorForm, form.flag = formula.truth := by
  induction formula with
  | constant flag => exact ⟨.constant flag, rfl⟩
  | negated formula ih =>
      obtain ⟨form, flag_eq⟩ := ih
      exact ⟨form.negated, congrArg not flag_eq⟩
  | connected connective left right left_ih right_ih =>
      obtain ⟨left, left_eq⟩ := left_ih
      obtain ⟨right, right_eq⟩ := right_ih
      exact ⟨left.connected connective right, congrArg₂ connective.compute left_eq right_eq⟩

end Formula

/-- The value of an operator called on the value of a term and then on any other value. -/
def Connective.call {H σ ε : Type} (connective : Connective) (host : Host H σ ε) (steps : Nat)
    (first : Term) (second : Value H) : Effect σ ε (Value H) := do
  let fn ← host.evaluate steps connective.term
  let fn ← host.apply steps fn (← host.evaluate steps first)
  host.apply steps fn second

theorem Connective.call_returns (connective : Connective) {H σ ε : Type} (host : Host H σ ε)
    {term : Term} (form : term.SelectorForm) {steps : Nat} (enough : form.bound + 6 ≤ steps)
    (second : Value H) (before : σ) :
    (connective.call host steps term second).Returns before (connective.answer form.flag second)
      before := by
  obtain ⟨fewer, rfl⟩ := Nat.exists_eq_add_of_le' (Nat.le_of_add_left_le enough)
  obtain ⟨fn, partialFn, fn_returned, partial_returned, answered⟩ :=
    connective.exists_calls (form.selects host fewer (by omega))
  have form_returned := form.evaluates host (fewer + 6) (by omega) before
  exact (fn_returned before).bind
    (form_returned.bind ((partial_returned before).bind (answered second before)))

namespace Term

/-- Applied to two terms of which the given truth values are read off, the boolean operators can be
built, have the type of selectors, and the truth value of the operation is read off them. -/
structure OperatorsCompute (first second : Term) (p q : Bool) : Prop where
  /-- The truth value of the first term. -/
  first_decodes : first.DecodesTo p
  /-- The truth value of the second term. -/
  second_decodes : second.DecodesTo q
  /-- The negation of the first term. -/
  negation : (app Library.negation first).Encodes (!p)
  /-- Both terms. -/
  conjunction : (apps Library.conjunction [first, second]).Encodes (p && q)
  /-- One of the terms. -/
  disjunction : (apps Library.disjunction [first, second]).Encodes (p || q)
  /-- Exactly one of the terms. -/
  exclusion : (apps Library.exclusion [first, second]).Encodes (p ^^ q)

/-- With a first operand of the given truth value, conjunction returns its second operand itself or
a selector of the second value, and disjunction a selector of the first value or its second operand
itself. No operator calls its second operand, whatever that is: the state of the host stays as it
is. -/
def ShortCircuits (first : Term) (p : Bool) : Prop :=
  ∃ bound, ∀ {H σ ε : Type} (host : Host H σ ε) steps, bound ≤ steps →
    host.Selects steps .falsehood false ∧ host.Selects steps .truth true ∧
      ∀ operand before,
        (Connective.conjunction.call host steps first operand).Returns before
            (if p then operand else .falsehood) before ∧
          (Connective.disjunction.call host steps first operand).Returns before
            (if p then .truth else operand) before ∧
          (Connective.exclusion.call host steps first operand).Returns before
            (if p then operand.swapped else operand) before

theorem SelectorForm.shortCircuits {term : Term} (form : term.SelectorForm) :
    term.ShortCircuits form.flag := by
  refine ⟨form.bound + 6, fun host steps enough => ?_⟩
  obtain ⟨fewer, rfl⟩ := Nat.exists_eq_add_of_le' (Nat.le_of_add_left_le enough)
  refine ⟨Host.selects_falsehood, Host.selects_truth, fun operand before => ?_⟩
  exact ⟨Connective.conjunction.call_returns host form enough operand before,
    Connective.disjunction.call_returns host form enough operand before,
    Connective.exclusion.call_returns host form enough operand before⟩

end Term

/-- On all terms with the type of selectors the boolean operators compute truth values, and do not
call their second operand. So formulas of any depth can be built and have their truth value. -/
theorem boolean_operators_compute (first second : TypedTerm)
    (first_boolean : (Ty.bool (.var "a")).isInstance first.type = true)
    (second_boolean : (Ty.bool (.var "a")).isInstance second.type = true) :
    (∃ p q, first.term.OperatorsCompute second.term p q ∧ first.term.ShortCircuits p) ∧
      ∀ formula : Formula, formula.term.Encodes formula.truth := by
  have first_typed := TypedTerm.hasType_iff.mpr first_boolean
  have second_typed := TypedTerm.hasType_iff.mpr second_boolean
  obtain ⟨left⟩ := first_typed.nonempty_selectorForm
  obtain ⟨right⟩ := second_typed.nonempty_selectorForm
  have connected (connective : Connective) :
      (Term.apps connective.term [first.term, second.term]).Encodes
        (connective.compute left.flag right.flag) :=
    (left.connected connective right).encodes (first_typed.connected connective second_typed)
  have computes : first.term.OperatorsCompute second.term left.flag right.flag :=
    { first_decodes := left.decodesTo
      second_decodes := right.decodesTo
      negation := left.negated.encodes first_typed.negated
      conjunction := connected .conjunction
      disjunction := connected .disjunction
      exclusion := connected .exclusion }
  refine ⟨⟨left.flag, right.flag, computes, left.shortCircuits⟩, fun formula => ?_⟩
  obtain ⟨form, flag_eq⟩ := formula.exists_selectorForm
  exact flag_eq ▸ form.encodes formula.hasType

/-- The operators on a negation and a truth value. -/
theorem operators_compute_on_negation :
    ∃ first second : TypedTerm,
      first.term = .app Library.negation Library.falsehood ∧ second.term = Library.falsehood ∧
        (Ty.bool (.var "a")).isInstance first.type = true ∧
          (Ty.bool (.var "a")).isInstance second.type = true ∧
            (∃ p q, first.term.OperatorsCompute second.term p q ∧ first.term.ShortCircuits p) ∧
              ∀ formula : Formula, formula.term.Encodes formula.truth := by
  have falsehood_typed := Library.hasType_selector false
  obtain ⟨first, first_term⟩ := TypedTerm.exists_of_hasType falsehood_typed.negated
  obtain ⟨second, second_term⟩ := TypedTerm.exists_of_hasType falsehood_typed
  have first_boolean := TypedTerm.hasType_iff.mp (first_term ▸ falsehood_typed.negated)
  have second_boolean := TypedTerm.hasType_iff.mp (second_term ▸ falsehood_typed)
  exact ⟨first, second, first_term, second_term, first_boolean, second_boolean,
    boolean_operators_compute first second first_boolean second_boolean⟩

end Combinatory
