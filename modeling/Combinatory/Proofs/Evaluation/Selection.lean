import Combinatory.CommandLine.TruthTable
import Combinatory.Evaluation.Selector
import Combinatory.Proofs.Evaluation.Totality

/-!
# Terms with the type of selectors select

A term of type `a → a → a` chooses between its two arguments, always the same one, and does nothing
with them. Called on two truth values, which cannot be called, it can only return one of them,
because a type variable may stand for the set of truth values. As neither of them has been called,
it does the same with any two values in their places.
-/

namespace Combinatory

@[simp]
theorem Value.replace_embed {H K : Type} (replacement : H → Value K) (value : Value Empty) :
    (value.embed : Value H).replace replacement = value.embed := by
  induction value with
  | host own => exact own.elim
  | constantly x x_ih => simp only [embed, replace, x_ih]
  | distributing p p_ih => simp only [embed, replace, p_ih]
  | distribute p f p_ih f_ih => simp only [embed, replace, p_ih, f_ih]
  | _ => rfl

namespace Host

variable {H σ ε : Type}

/-- With the given number of steps the function, called on two values in turn, returns the first one
or the second one, by the flag. It calls no value of the host and leaves the state alone. -/
def Selects (host : Host H σ ε) (steps : Nat) (selector : Value H) (flag : Bool) : Prop :=
  ∀ first, ∃ chooser,
    (∀ before, (host.apply steps selector first).Returns before chooser before) ∧
      ∀ second before, (host.apply steps chooser second).Returns before
        (if flag then first else second) before

variable {host : Host H σ ε} {steps : Nat} {selector : Value H} {flag : Bool}

/-- The two calls may be granted different numbers of steps. -/
theorem Selects.exists_chooser (selects : host.Selects steps selector flag) {one two : Nat}
    (one_enough : steps ≤ one) (two_enough : steps ≤ two) (first : Value H) :
    ∃ chooser, (∀ before, (host.apply one selector first).Returns before chooser before) ∧
      ∀ second before, (host.apply two chooser second).Returns before
        (if flag then first else second) before := by
  obtain ⟨chooser, chooser_returned, chosen⟩ := selects first
  refine ⟨chooser, fun before => ?_, fun second before => ?_⟩
  · exact (host.apply_continuedBy one_enough _ _).returns (chooser_returned before)
  · exact (host.apply_continuedBy two_enough _ _).returns (chosen second before)

theorem Selects.mono (selects : host.Selects steps selector flag) {more : Nat}
    (enough : steps ≤ more) : host.Selects more selector flag :=
  selects.exists_chooser enough enough

theorem Selects.choose (selects : host.Selects steps selector flag) (first second : Value H)
    (before : σ) :
    (host.choose steps selector first second).Returns before (if flag then first else second)
      before := by
  obtain ⟨chooser, chooser_returned, chosen⟩ := selects first
  exact (chooser_returned before).bind (chosen second before)

theorem refuses_truthValues : TruthTable.host.Refuses := nofun

/-- What chooses one of the two truth values, which cannot be called, selects it in every host. -/
theorem selects_of_truthValues {selector : Value Empty} {chooser : Value Bool} {one two : Nat}
    (first_called : (TruthTable.host.apply one selector.embed (.host true)).Returns () chooser ())
    (second_called : (TruthTable.host.apply two chooser (.host false)).Returns () (.host flag) ())
    (host : Host H σ ε) (one_enough : one ≤ steps) (two_enough : two ≤ steps) :
    host.Selects steps selector.embed flag := by
  intro first
  let inPlace (second : Value H) (flag : Bool) : Value H := if flag then first else second
  have chooser_returned (second : Value H) (before : σ) :
      (host.apply steps selector.embed first).Returns before (chooser.replace (inPlace second))
        before := by
    have called := refuses_truthValues.apply_replace host (inPlace second) first_called before
    rw [Value.replace_embed] at called
    exact (host.apply_continuedBy one_enough _ _).returns called
  refine ⟨chooser.replace (inPlace first), chooser_returned first, fun second before => ?_⟩
  -- The first call knows nothing of the second argument, so neither does the chooser.
  have same : chooser.replace (inPlace first) = chooser.replace (inPlace second) := by
    have returned := (chooser_returned first before).symm.trans (chooser_returned second before)
    exact Except.ok.inj (Prod.mk.inj returned).1
  rw [same]
  have called := refuses_truthValues.apply_replace host (inPlace second) second_called before
  exact (host.apply_continuedBy two_enough _ _).returns called

end Host

namespace Term

/-- A term evaluates to a selector. -/
structure SelectorForm (term : Term) where
  /-- What the term evaluates to in every host. -/
  value : Value Empty
  /-- Whether that selects the first value. -/
  flag : Bool
  /-- A number of steps that is enough. -/
  bound : Nat
  /-- The value is what the term evaluates to. -/
  evaluates {H σ ε : Type} (host : Host H σ ε) (steps : Nat) (enough : bound ≤ steps) (before : σ) :
    (host.evaluate steps term).Returns before value.embed before
  /-- The value selects by the flag. -/
  selects {H σ ε : Type} (host : Host H σ ε) (steps : Nat) (enough : bound ≤ steps) :
    host.Selects steps value.embed flag

/-- A term with the type of selectors evaluates to a selector. -/
theorem HasType.nonempty_selectorForm {term : Term} (typed : term.HasType (.bool (.var "a"))) :
    Nonempty term.SelectorForm := by
  obtain ⟨steps, value, ⟨⟩, returned, -⟩ := Host.none.evaluate_total typed ()
  -- A type variable stands for the two truth values, so the choice between them is one of them.
  obtain ⟨truth_steps, truthValue, ⟨⟩, truth_returned, realizes⟩ :=
    TruthTable.host.evaluate_realizes (fun _ value => ∃ flag, value = .host flag) typed ()
  obtain rfl : truthValue = value.embed := by
    have truth_returned := (TruthTable.host.evaluate_continuedBy
      (Nat.le_max_right steps _) term).returns truth_returned
    have returned := (TruthTable.host.evaluate_continuedBy
      (Nat.le_max_left _ truth_steps) term).returns (TruthTable.host.evaluate_embed returned ())
    cases truth_returned.symm.trans returned
    rfl
  obtain ⟨first_steps, chooser, ⟨⟩, first_called, chooser_realizes⟩ :=
    realizes (.host true) ⟨true, rfl⟩ ()
  obtain ⟨second_steps, _, ⟨⟩, second_called, flag, rfl⟩ :=
    chooser_realizes (.host false) ⟨false, rfl⟩ ()
  refine ⟨{ value, flag, bound := max steps (max first_steps second_steps),
            evaluates := fun host more enough before => ?_,
            selects := fun host more enough => ?_ }⟩
  · exact (host.evaluate_continuedBy (by omega) term).returns (host.evaluate_embed returned before)
  · exact Host.selects_of_truthValues first_called second_called host (by omega) (by omega)

end Term
end Combinatory
