import Combinatory.Term.Raw

/-!
# Questions about raw terms

A question about a raw term is answered part by part: there is an answer for every atom, and the
answer for a node is put together from those for its two parts. This module holds the questions and
says what each is answered with when nothing has been asked before. A part that is plain data has no
answer. The type of a part is asked for as that of an operand; the other questions take it for
granted that the parts of a term are terms.
-/

namespace Combinatory

open RawTerm (Failure)

/-- A question about raw terms with answers of type `α`. -/
structure Question (α : Type) where
  /-- The answer for an atom of a given name. -/
  atom : String → Except Failure α
  /-- The heads of nodes for which there is an answer. -/
  head : String → Except Failure Unit
  /-- Is the second part of a node asked before the first one? -/
  argFirst : Bool
  /-- The answer for a node, by its two parts and the answers for them. -/
  node : RawTerm → RawTerm → α → α → Except Failure α
  /-- Why there is no answer for plain data. -/
  alien : Datum → Failure
  /-- Are plain data refused before a remembered answer is looked for? -/
  guarded : Bool

namespace Question

/-- The answers for both parts of a node, in the order in which they are asked for. -/
def both {m : Type → Type} [Monad m] {α : Type} (question : Question α) (fn arg : m α) :
    m (α × α) := do
  if question.argFirst then
    let argAnswer ← arg
    let fnAnswer ← fn
    return (fnAnswer, argAnswer)
  else
    let fnAnswer ← fn
    let argAnswer ← arg
    return (fnAnswer, argAnswer)

/-- The answer for a term. -/
def answer {α : Type} (question : Question α) : RawTerm → Except Failure α
  | .atom name => question.atom name
  | .node head lhs rhs => do
      question.head head
      let (fn, arg) ← question.both (question.answer lhs) (question.answer rhs)
      question.node lhs rhs fn arg
  | .alien value => .error (question.alien value)

/-- Let pass the head of applications only. -/
def applicationsOnly (head : String) : Except Failure Unit :=
  if head = RawTerm.appHead then .ok () else .error .notAnApplication

/-- What is the principal type? -/
def principalType : Question Ty where
  atom name :=
    match RawTerm.scheme? name with
    | some type => .ok type
    | none => .error (.unknownAtom name)
  head := applicationsOnly
  argFirst := true
  node fn arg fnType argType :=
    match Ty.applied .start fnType argType with
    | .ok type => .ok type
    | .error reason => .error (.illTyped { fn, arg, fnType, argType, reason })
  alien := .expectedTerm
  guarded := true

/-- How is the term written? -/
def written : Question String where
  atom := .ok
  head := applicationsOnly
  argFirst := false
  node _ _ fnText argText := .ok (Term.parenthesize fnText argText)
  alien := .notATerm
  guarded := false

/-- How many atoms are there? -/
def atomCount : Question Nat where
  atom _ := .ok 1
  head _ := .ok ()
  argFirst := false
  node _ _ fnCount argCount := .ok (fnCount + argCount)
  alien := .notATerm
  guarded := false

/-- How many nodes are there around the most deeply nested atom? -/
def nesting : Question Nat where
  atom _ := .ok 0
  head _ := .ok ()
  argFirst := false
  node _ _ fnNesting argNesting := .ok (1 + max fnNesting argNesting)
  alien := .notATerm
  guarded := false

/-- Which combinator term is it, whether or not that has a type? -/
def combinatorTerm : Question Term where
  atom name :=
    match RawTerm.combinator? name with
    | some term => .ok term
    | none => .error (.unknownAtom name)
  head := applicationsOnly
  argFirst := false
  node _ _ fn arg := .ok (.app fn arg)
  alien := .notATerm
  guarded := false

end Question

namespace RawTerm

/-- The principal type of a term. -/
def typeOf? (term : RawTerm) : Except Failure Ty :=
  Question.principalType.answer term

/-- The term as it is written. -/
def render? (term : RawTerm) : Except Failure String := do
  Question.written.answer (← term.proper?)

/-- The number of atoms of a term. -/
def size? (term : RawTerm) : Except Failure Nat :=
  Question.atomCount.answer term

/-- The number of nodes around the most deeply nested atom. -/
def depth? (term : RawTerm) : Except Failure Nat :=
  Question.nesting.answer term

/-- The combinator term that a raw term stands for, whether or not that has a type. -/
def toTerm? (term : RawTerm) : Except Failure Term := do
  Question.combinatorTerm.answer (← term.proper?)

end RawTerm

namespace RawTerm.Failure

/-- What is reported when a question is refused; none where no text can be made. -/
def message : Failure → Option String
  | expectedTerm value => some ("Expected a term, got " ++ value.quoted)
  | notATerm value => some value.display
  | notAKey reason => some reason.message
  | unknownAtom name => some name
  | notAnApplication => none
  | illTyped refusal => do
      let fnText ← refusal.fn.render?.toOption
      let argText ← refusal.arg.render?.toOption
      return IllTyped.report fnText argText refusal.fnType refusal.argType refusal.reason
  | noInstance term principal type =>
      some (term ++ " : " ++ principal ++ " has no instance " ++ type)

end RawTerm.Failure
end Combinatory
