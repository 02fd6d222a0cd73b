import Combinatory.Evaluation.Selector

/-!
# Truth tables

The boolean operators of the library are tabulated by evaluating them on all selectors.
-/

namespace Combinatory
namespace TruthTable

/-- A boolean operator. -/
structure Operator where
  /-- The name by which it is looked up. -/
  name : String
  /-- The term. -/
  term : Term
  /-- The number of operands. -/
  arity : Nat

/-- The operators that can be tabulated. -/
def operators : List Operator :=
  [ ⟨"not", Library.negation, 1⟩,
    ⟨"and", Library.conjunction, 2⟩,
    ⟨"or", Library.disjunction, 2⟩,
    ⟨"xor", Library.exclusion, 2⟩ ]

/-- The host whose values are truth values, none of which can be called. -/
def host : Host Bool Unit Unit :=
  ⟨fun _ _ => Effect.raise ()⟩

/-- The steps granted to each call. -/
def steps : Nat := 1000

/-- All ways to give truth values to a number of operands, true before false. -/
def assignments : Nat → List (List Bool)
  | 0 => [[]]
  | operands + 1 => [true, false].flatMap fun flag => (assignments operands).map (flag :: ·)

/-- The truth value of a term applied to operands, if it is a selector then. -/
def value? (term : Term) (operands : List Bool) : Option Bool :=
  let evaluation : Effect Unit Unit (Value Bool) := do
    let fn ← host.evaluate steps term
    let result ← operands.foldlM (fun fn flag => do
      host.apply steps fn (← host.encode steps flag)) fn
    host.choose steps result (.host true) (.host false)
  match (evaluation.run ()).1 with
  | .ok (.host flag) => some flag
  | _ => none

/-- The letter for a truth value. -/
def letter (flag : Bool) : Char :=
  if flag then 'T' else 'F'

/-- The rows of the table of an operator: the operands and the result. -/
def rows? (operator : Operator) : Option (List String) :=
  (assignments operator.arity).mapM fun operands => do
    let result ← value? operator.term operands
    return String.ofList (operands.map letter ++ [' ', letter result])

end TruthTable
end Combinatory
