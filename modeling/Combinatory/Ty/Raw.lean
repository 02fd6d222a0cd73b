import Combinatory.Datum
import Combinatory.Ty.Printing

/-!
# Types as they are handed in

A raw type has not been checked: its nodes may carry any head, its variables any name, and plain
data may stand where a type is expected. Only the head `ARROW` makes a node a function type for
matching and in the domain of a written arrow; otherwise every node is read as a function type, but
one under the head of variables is a variable, and its first part is written for its name. An
operation that comes upon plain data refuses them. Raw types are equal if their shapes are, so equal
data in them make equal types.

`bind?` replaces variables and makes every other node a proper function type; `erase?` forgets the
heads, and what tells variables apart besides the way they are written.
-/

namespace Combinatory

/-- A type that has not been checked. -/
inductive RawTy where
  /-- A variable of any name. -/
  | var (name : String)
  /-- Two types under any head. -/
  | node (head : String) (dom cod : RawTy)
  /-- Plain data, which are no type. -/
  | alien (value : Datum)
  deriving Inhabited, Repr

/-- Why an operation on raw types is refused. -/
inductive RawTy.Failure where
  /-- This is no name for a type variable. -/
  | invalidName (value : Datum)
  /-- A function type needs at least one type. -/
  | noTypes
  /-- A type was expected. -/
  | notAType (value : Datum)
  /-- Data that cannot be part of a key were bound. -/
  | notAKey (reason : Datum.Unkeyable)
  /-- The variables of a node that is no function type were asked for; the node as written, if it
  can be. -/
  | notAnArrow (text : Option String)
  /-- The equation has no solution. -/
  | unsolvable (reason : UnificationFailure)
  /-- Two types, as written, were declared different. -/
  | mismatch (left right : String)
  deriving Inhabited

namespace RawTy

/-- The head of function types. -/
def arrowHead : String := "ARROW"

/-- The head of type variables. -/
def variableHead : String := "TVAR"

/-- Does the raw type count as a variable? -/
def isVariable : RawTy → Bool
  | var _ => true
  | node head _ _ => head == variableHead
  | alien _ => false

/-- The shape by which raw types are compared. -/
def shape : RawTy → Shape
  | var name => .ofList [.text variableHead, .text name]
  | node head dom cod => .ofList [.text head, dom.shape, cod.shape]
  | alien value => value.shape

instance : BEq RawTy := ⟨fun left right => left.shape == right.shape⟩

/-- The first data inside a type that cannot be part of a key. -/
def unkeyable? : RawTy → Option Datum.Unkeyable
  | var _ => none
  | node _ dom cod => dom.unkeyable?.orElse fun _ => cod.unkeyable?
  | alien value => value.unkeyable?

/-- A proper type as a raw one. -/
def ofTy : Ty → RawTy
  | .var name => var name
  | .arrow dom cod => node arrowHead (ofTy dom) (ofTy cod)

/-- The raw type as a proper one, if that is what it is. -/
def toTy? : RawTy → Option Ty
  | var name => some (.var name)
  | node head dom cod =>
      if head = arrowHead then do return .arrow (← dom.toTy?) (← cod.toTy?) else none
  | alien _ => none

/-- The number of nodes of a raw type. -/
def size : RawTy → Nat
  | node _ dom cod => dom.size + cod.size + 1
  | _ => 1

/-- Refuse plain data. -/
def proper? : RawTy → Except Failure RawTy
  | alien value => .error (.notAType value)
  | type => .ok type

/-- The type variable of a given name. -/
def var? : Datum → Except Failure RawTy
  | .literal (.text name) =>
      if Ty.isWritable name then .ok (var name) else .error (.invalidName (.literal (.text name)))
  | value => .error (.invalidName value)

/-- The function type between two types. -/
def arrow? (dom cod : RawTy) : Except Failure RawTy := do
  let dom ← dom.proper?
  let cod ← cod.proper?
  return node arrowHead dom cod

/-- The function type through all the given types, built from the right. -/
def arrows? : List RawTy → Except Failure RawTy
  | [] => .error .noTypes
  | [type] => .ok type
  | type :: types => do arrow? type (← arrows? types)

/-- Is this a type variable? -/
def isVar? (type : RawTy) : Except Failure Bool := do
  return (← type.proper?).isVariable

/-- Is this a function type? -/
def isArrow? : RawTy → Except Failure Bool
  | var _ => .ok false
  | node head _ _ => .ok (head == arrowHead)
  | alien value => .error (.notAType value)

/-- The type as it is written. -/
def pretty? : RawTy → Except Failure String
  | var name => .ok name
  | node head dom cod =>
      if head = variableHead then
        match dom with
        | alien value => .ok value.display
        | name => name.pretty?
      else do
        let domText ← dom.pretty?
        let parenthesized ← dom.isArrow?
        return Ty.joinArrow parenthesized domText (← cod.pretty?)
  | alien value => .error (.notAType value)

/-- The type by the operations that build it. -/
def constructorForm : RawTy → String
  | var name => "TVAR(" ++ Text.quoted name ++ ")"
  | node head dom cod =>
      if head = variableHead then "TVAR(" ++ dom.constructorForm ++ ")"
      else "ARROW(" ++ dom.constructorForm ++ ", " ++ cod.constructorForm ++ ")"
  | alien value => value.quoted

/-- The value as it is written on its own, plain data included. -/
def display? : RawTy → Except Failure String
  | alien value => .ok value.display
  | type => type.pretty?

/-- Replace variables, and make every other node a function type. -/
def bind? (replacement : RawTy → Except Failure RawTy) : RawTy → Except Failure RawTy
  | var name => replacement (var name)
  | node head dom cod =>
      if head = variableHead then replacement (node head dom cod)
      else do
        let dom ← dom.bind? replacement
        let cod ← cod.bind? replacement
        arrow? dom cod
  | alien value => .error (.notAType value)

/-- The proper type whose variables are named as those of the raw type are written. -/
def erase? : RawTy → Except Failure Ty
  | var name => .ok (.var name)
  | node head dom cod =>
      if head = variableHead then do return .var (← (node head dom cod).pretty?)
      else do return .arrow (← dom.erase?) (← cod.erase?)
  | alien value => .error (.notAType value)

/-- The variables of a type from left to right, with repetition. -/
def leaves? : RawTy → Except Failure (List RawTy)
  | var name => .ok [var name]
  | node head dom cod =>
      if head = variableHead then .ok [node head dom cod]
      else do return (← dom.leaves?) ++ (← cod.leaves?)
  | alien value => .error (.notAType value)

/-- The variables of a type in order of first appearance. -/
def vars? (type : RawTy) : Except Failure (List RawTy) := do
  return (← type.leaves?).eraseDups

/-- The variables of a function type, each once. -/
def freeVars? : RawTy → Except Failure (List RawTy)
  | var name => .ok [var name]
  | node head dom cod =>
      if head = variableHead then .ok [node head dom cod]
      else if head = arrowHead then do
        let domVars ← dom.freeVars?
        let codVars ← cod.freeVars?
        return domVars ++ codVars.filter (!domVars.contains ·)
      else .error (.notAnArrow (node head dom cod).pretty?.toOption)
  | alien value => .error (.notAType value)

/-- The type with canonical names. -/
def canonicalize? (type : RawTy) : Except Failure Ty := do
  let names ← type.vars?
  let canonical ← type.bind? fun x => .ok (var (Ty.canonicalName (names.idxOf x)))
  canonical.erase?

/-- The declaration that two types differ. -/
def mismatch (left right : RawTy) : Failure :=
  match left.pretty?, right.pretty? with
  | .ok leftText, .ok rightText => .mismatch leftText rightText
  | .error failure, _ => failure
  | _, .error failure => failure

end RawTy

namespace RawTy.Failure

/-- What is reported when an operation on raw types is refused; none where no text can be made. -/
def message : Failure → Option String
  | invalidName value => some ("Invalid type variable name: " ++ value.quoted)
  | noTypes => some "Too few arguments: arrow()"
  | notAType value => some value.display
  | notAKey reason => some reason.message
  | notAnArrow text => text
  | unsolvable reason => some reason.message
  | mismatch left right => some ("Cannot unify " ++ left ++ " with " ++ right)

end RawTy.Failure
end Combinatory
