import Combinatory.Datum
import Combinatory.Term.Typing

/-!
# Terms as they are handed in

A raw term has not been checked: its atoms may have any name, its nodes any head, its applications
need no type, and plain data may stand where a term is expected. Equality of raw terms is equality
of their shapes, and plain data may have the shape of a term.
-/

namespace Combinatory

/-- A term that has not been checked. -/
inductive RawTerm where
  /-- An atom of any name. -/
  | atom (name : String)
  /-- Two terms under any head. -/
  | node (head : String) (lhs rhs : RawTerm)
  /-- Plain data, which are no term. -/
  | alien (value : Datum)
  deriving Inhabited, Repr

/-- Why a question about a raw term is refused. -/
inductive RawTerm.Failure where
  /-- A term was expected as operand. -/
  | expectedTerm (value : Datum)
  /-- A term was taken for granted. -/
  | notATerm (value : Datum)
  /-- Data that cannot be part of a key are in the way of a remembered answer. -/
  | notAKey (reason : Datum.Unkeyable)
  /-- No atom has this name. -/
  | unknownAtom (name : String)
  /-- The head of a node is not that of applications. -/
  | notAnApplication
  /-- An application has no type. -/
  | illTyped (refusal : IllTyped RawTerm)
  /-- The principal type has no such instance; term and types are given as written. -/
  | noInstance (term principal type : String)
  deriving Inhabited

namespace RawTerm

/-- The head of applications. -/
def appHead : String := "APP"

/-- A combinator term as a raw one. -/
def ofTerm : Term → RawTerm
  | .S => atom "S"
  | .K => atom "K"
  | .I => atom "I"
  | .app fn arg => node appHead (ofTerm fn) (ofTerm arg)

/-- The combinator that an atom names. -/
def combinator? : String → Option Term
  | "S" => some .S
  | "K" => some .K
  | "I" => some .I
  | _ => none

/-- The type scheme of the combinator that an atom names. -/
def scheme? : String → Option Ty
  | "S" => some Ty.distributor
  | "K" => some Ty.constant
  | "I" => some Ty.identity
  | _ => none

/-- The shape by which raw terms are compared. -/
def shape : RawTerm → Shape
  | atom name => .ofList [.text name]
  | node head lhs rhs => .ofList [.text head, lhs.shape, rhs.shape]
  | alien value => value.shape

/-- The first data inside a term that cannot be part of a key. -/
def unkeyable? : RawTerm → Option Datum.Unkeyable
  | atom _ => none
  | node _ lhs rhs => lhs.unkeyable?.orElse fun _ => rhs.unkeyable?
  | alien value => value.unkeyable?

/-- The term by the operations that build it. -/
def constructorForm : RawTerm → String
  | atom name => name
  | node head lhs rhs => head ++ "(" ++ lhs.constructorForm ++ ", " ++ rhs.constructorForm ++ ")"
  | alien value => value.quoted

/-- Is the term an atom? -/
def isAtom? : RawTerm → Except Failure Bool
  | atom _ => .ok true
  | node _ _ _ => .ok false
  | alien value => .error (.notATerm value)

/-- Does the term begin with the mark of applications? -/
def isApp? : RawTerm → Except Failure Bool
  | atom name => .ok (name == appHead)
  | node head _ _ => .ok (head == appHead)
  | alien value => .error (.notATerm value)

/-- Refuse plain data as operand. -/
def proper? : RawTerm → Except Failure RawTerm
  | alien value => .error (.expectedTerm value)
  | term => .ok term

/-- Refuse what cannot be a key. -/
def keyable? (term : RawTerm) : Except Failure RawTerm :=
  match term.unkeyable? with
  | some reason => .error (.notAKey reason)
  | none => .ok term

end RawTerm

end Combinatory
