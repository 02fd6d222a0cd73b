import Combinatory.Program.Run
import Combinatory.Proofs.Evaluation.Selection
import Combinatory.Proofs.Term.Building

/-!
# Choices of host programs

A host program reads a truth value off a selector by having it choose between two literals, and it
branches by having it choose between two computations that have been put off. A term with the type
of selectors always chooses the same way, so both agree, and the computation that it does not choose
is never run.
-/

namespace Combinatory

namespace Program

variable {evaluate : Scope → Expr → Run Val} {machine : Machine}

/-! ## Computations put off -/

/-- The computation that a value is or becomes when it is put off. -/
def Machine.thunk? (machine : Machine) : Val → Option Thunk
  | .host (.thunk number) => machine.thunks[number]?
  | .host (.literal _) => none
  | fn => some (.pending (.call fn))

/-- The number under which a value is put off. -/
def Machine.numberOf (machine : Machine) : Val → Nat
  | .host (.thunk number) => number
  | _ => machine.thunks.size

/-- The state in which a value has been put off. -/
def Machine.delaying (machine : Machine) : Val → Machine
  | .host (.thunk _) => machine
  | .host (.literal _) => machine
  | fn => { machine with thunks := machine.thunks.push (.pending (.call fn)) }

theorem Machine.getElem?_delaying {number : Nat} {thunk : Thunk}
    (there : machine.thunks[number]? = some thunk) (value : Val) :
    (machine.delaying value).thunks[number]? = some thunk := by
  unfold delaying
  split
  · exact there
  · exact there
  · obtain ⟨inside, rfl⟩ := Array.getElem?_eq_some_iff.mp there
    rw [Array.getElem?_push_lt inside]

theorem Machine.thunk?_delaying {value : Val} {thunk : Thunk}
    (known : machine.thunk? value = some thunk) (other : Val) :
    (machine.delaying other).thunk? value = some thunk := by
  unfold thunk? at known ⊢
  split at known
  · exact getElem?_delaying known other
  · exact known
  · exact known

theorem suspend_returns (computation : Computation) :
    (suspend computation).Returns machine (.host (.thunk machine.thunks.size))
      { machine with thunks := machine.thunks.push (.pending computation) } := rfl

/-- A computation is put off without running anything. -/
theorem delay_returns {value : Val} {thunk : Thunk} (known : machine.thunk? value = some thunk) :
    (delay value).Returns machine (.host (.thunk (machine.numberOf value)))
        (machine.delaying value) ∧
      (machine.delaying value).thunks[machine.numberOf value]? = some thunk := by
  unfold Machine.thunk? at known
  split at known
  next number => exact ⟨rfl, known⟩
  next => cases known
  next not_thunk not_literal =>
    cases known
    rw [delay.eq_3 value not_thunk not_literal, Machine.numberOf.eq_2 machine value not_thunk,
      Machine.delaying.eq_3 machine value not_thunk not_literal]
    exact ⟨suspend_returns _, Array.getElem?_push_size⟩

/-- Have a computation run unless it has been completed, and keep its result by its number. -/
def Thunk.complete (evaluate : Scope → Expr → Run Val) (number : Nat) : Thunk → Run Val
  | .forced result => return result
  | .pending computation => do
      let result ← compute evaluate computation
      modify fun machine =>
        { machine with thunks := machine.thunks.setIfInBounds number (.forced result) }
      return result

theorem outcome_force {number : Nat} {thunk : Thunk}
    (there : machine.thunks[number]? = some thunk) :
    (force evaluate (.host (.thunk number))).outcome machine =
      (thunk.complete evaluate number).outcome machine := by
  simp only [force, ExceptT.outcome_bind, ExceptT.outcome_get, there]
  cases thunk <;> rfl

/-- A branch puts both computations off and has the selected one run. -/
theorem outcome_branch {steps : Nat} {selector : Val} {flag : Bool}
    (selects : (hostOf evaluate).Selects steps selector flag) {first second : Val}
    {firstThunk secondThunk : Thunk} (first_known : machine.thunk? first = some firstThunk)
    (second_known : machine.thunk? second = some secondThunk) :
    let number :=
      if flag then machine.numberOf first else (machine.delaying first).numberOf second
    let selected := if flag then firstThunk else secondThunk
    (branch evaluate steps selector first second).outcome machine =
      (selected.complete evaluate number).outcome ((machine.delaying first).delaying second) := by
  intro number selected
  obtain ⟨first_delayed, first_there⟩ := delay_returns first_known
  obtain ⟨second_delayed, second_there⟩ :=
    delay_returns (Machine.thunk?_delaying second_known first)
  obtain ⟨chooser, chooser_returned, chosen⟩ :=
    selects (.host (.thunk (machine.numberOf first)))
  have choice :
      ((hostOf evaluate).apply steps chooser
        (.host (.thunk ((machine.delaying first).numberOf second)))).Returns
          ((machine.delaying first).delaying second) (.host (.thunk number))
          ((machine.delaying first).delaying second) := by
    cases flag <;> exact chosen _ _
  have there : ((machine.delaying first).delaying second).thunks[number]? = some selected := by
    cases flag with
    | false => exact second_there
    | true => exact Machine.getElem?_delaying first_there second
  rw [branch, first_delayed.outcome_bind, (chooser_returned _).outcome_bind,
    second_delayed.outcome_bind, choice.outcome_bind, outcome_force there]

/-- A branch calls the selected function only; the other one would raise an error. -/
example :
    ((branch (Program.evaluate 1) 1 .constant
        (.host (.procedure (.literal (.text "then")) [])) (.host (.boom "called"))).outcome
          .initial).1 = .ok (literal (.text "then")) :=
  rfl

theorem decode_returns {host : Host Foreign Machine Failure} {steps : Nat} {selector : Val}
    {flag : Bool} (selects : host.Selects steps selector flag) :
    (decode host steps selector).Returns machine flag machine := by
  have choice := selects.choose (literal (.bool true)) (literal (.bool false)) machine
  refine choice.bind ?_
  cases flag <;> rfl

end Program

namespace Term

open Program (Foreign Failure Machine Run Scope Expr Val)

/-- Called on any two values in any host the term returns the first one or the second one, by the
flag, and calls neither of them. -/
def Selects (term : Term) (flag : Bool) : Prop :=
  ∃ bound, ∀ {H σ ε : Type} (host : Host H σ ε) steps, bound ≤ steps → ∀ first second before,
    (do host.choose steps (← host.evaluate steps term) first second).Returns before
      (if flag then first else second) before

/-- The flag is the truth value that is read off the term. -/
def DecodesTo (term : Term) (flag : Bool) : Prop :=
  ∃ bound, ∀ (host : Host Foreign Machine Failure) steps, bound ≤ steps → ∀ before,
    (do Program.decode host steps (← host.evaluate steps term)).Returns before flag before

/-- Of two computations the selected one is run once and the other one is not: the branch does what
the selected one does after both have been put off, and its result is kept under its number. -/
def BranchesOn (term : Term) (flag : Bool) : Prop :=
  ∃ bound, ∀ (evaluate : Scope → Expr → Run Val) steps, bound ≤ steps →
    ∀ (machine : Machine) first second firstThunk secondThunk,
      machine.thunk? first = some firstThunk → machine.thunk? second = some secondThunk →
        let number :=
          if flag then machine.numberOf first else (machine.delaying first).numberOf second
        let selected := if flag then firstThunk else secondThunk
        (do
            let selector ← (Program.hostOf evaluate).evaluate steps term
            Program.branch evaluate steps selector first second).outcome machine =
          (selected.complete evaluate number).outcome ((machine.delaying first).delaying second)

namespace SelectorForm

variable {term : Term}

theorem termSelects (form : term.SelectorForm) : term.Selects form.flag :=
  ⟨form.bound, fun host steps enough first second before =>
    (form.evaluates host steps enough before).bind
      ((form.selects host steps enough).choose first second before)⟩

theorem decodesTo (form : term.SelectorForm) : term.DecodesTo form.flag :=
  ⟨form.bound, fun host steps enough before =>
    (form.evaluates host steps enough before).bind
      (Program.decode_returns (form.selects host steps enough))⟩

theorem branchesOn (form : term.SelectorForm) : term.BranchesOn form.flag := by
  refine ⟨form.bound, fun evaluate steps enough machine first second firstThunk secondThunk
    first_known second_known => ?_⟩
  rw [(form.evaluates _ steps enough machine).outcome_bind]
  exact Program.outcome_branch (form.selects _ steps enough) first_known second_known

end SelectorForm
end Term

/-- A term with the type of selectors always selects the same way, without a call of either value.
The truth value read off it says which way, and a branch on it runs what it selects, once, and never
the other computation. -/
theorem boolean_term_selects (typed : TypedTerm)
    (boolean : (Ty.bool (.var "a")).isInstance typed.type = true) :
    ∃ flag, typed.term.DecodesTo flag ∧ typed.term.Selects flag ∧ typed.term.BranchesOn flag := by
  obtain ⟨form⟩ := (TypedTerm.hasType_iff.mpr boolean).nonempty_selectorForm
  exact ⟨form.flag, form.decodesTo, form.termSelects, form.branchesOn⟩

/-- The selector of the second value, its arguments swapped twice. -/
theorem swapped_falsehood_selects :
    ∃ typed : TypedTerm,
      typed.term = .app Library.negation (.app Library.negation Library.falsehood) ∧
        (Ty.bool (.var "a")).isInstance typed.type = true ∧
          ∃ flag, typed.term.DecodesTo flag ∧ typed.term.Selects flag ∧
            typed.term.BranchesOn flag := by
  obtain ⟨typed, built, boolean⟩ : ∃ typed,
      TypedTerm.build? (.app Library.negation (.app Library.negation Library.falsehood)) =
          .ok typed ∧
        (Ty.bool (.var "a")).isInstance typed.type = true :=
    ⟨_, rfl, by decide +kernel⟩
  exact ⟨typed, TypedTerm.build?_ok_iff.mp built, boolean, boolean_term_selects typed boolean⟩

end Combinatory
