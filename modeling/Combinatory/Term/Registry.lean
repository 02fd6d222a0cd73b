import Combinatory.Memo.Basic
import Combinatory.Term.Library
import Combinatory.Term.Question
import Combinatory.Ty.RawSubst

/-!
# Shared terms

A registry hands out terms so that equal applications are one and the same object, and remembers the
answers about terms that it has given. Objects are told apart by serial numbers. An application is
registered by its shape, so parts that are equal without being the same object give the same
application. The answers too are kept by shape, and plain data may have the shape of a term.
-/

namespace Combinatory

/-- An object: a raw term with the number that tells it apart. -/
structure RawTerm.Object where
  /-- The number of the object. -/
  serial : Nat
  /-- The term that the object is. -/
  term : RawTerm
  deriving Inhabited

/-- Are the two the same object? -/
def RawTerm.Object.isSame (left right : RawTerm.Object) : Bool :=
  match left.term, right.term with
  | .alien leftValue, .alien rightValue =>
      leftValue.areOneObject rightValue || left.serial == right.serial
  | _, _ => left.serial == right.serial

/-- The objects registered so far and the answers remembered about terms. -/
structure Registry where
  /-- The serial number of the next object. -/
  nextSerial : Nat
  /-- The registered atoms and applications by shape. -/
  objects : Std.HashMap Shape RawTerm.Object
  /-- The principal types found. -/
  types : Std.HashMap Shape Ty
  /-- The written forms made. -/
  texts : Std.HashMap Shape String
  /-- The sizes computed. -/
  sizes : Std.HashMap Shape Nat
  /-- The depths computed. -/
  depths : Std.HashMap Shape Nat
  /-- The combinator terms recognized. -/
  combinators : Std.HashMap Shape Term
  deriving Inhabited

namespace Registry

open RawTerm (Failure Object)

/-- A question or an order to the registry. -/
abbrev Access := ExceptT Failure (StateM Registry)

/-- The registry in which nothing is registered. -/
def empty : Registry :=
  { nextSerial := 0, objects := ∅, types := ∅, texts := ∅, sizes := ∅, depths := ∅,
    combinators := ∅ }

/-- Where principal types are kept. -/
def typeSlot : Memo.Slot Registry Shape Ty :=
  ⟨types, fun table state => { state with types := table }⟩

/-- Where written forms are kept. -/
def textSlot : Memo.Slot Registry Shape String :=
  ⟨texts, fun table state => { state with texts := table }⟩

/-- Where sizes are kept. -/
def sizeSlot : Memo.Slot Registry Shape Nat :=
  ⟨sizes, fun table state => { state with sizes := table }⟩

/-- Where depths are kept. -/
def depthSlot : Memo.Slot Registry Shape Nat :=
  ⟨depths, fun table state => { state with depths := table }⟩

/-- Where recognized combinator terms are kept. -/
def combinatorSlot : Memo.Slot Registry Shape Term :=
  ⟨combinators, fun table state => { state with combinators := table }⟩

/-- A new object, equal to others or not. -/
def newObject (term : RawTerm) : Access Object := do
  let serial := (← get).nextSerial
  modify fun state => { state with nextSerial := serial + 1 }
  return { serial, term }

/-- The registered object of the term's shape, which is made if there is none. -/
def register (term : RawTerm) : Access Object := do
  match (← get).objects[term.shape]? with
  | some object => return object
  | none =>
      let object ← newObject term
      modify fun state => { state with objects := state.objects.insert term.shape object }
      return object

/-- Answer a question about a term; the answers for it and its parts are remembered by shape. -/
def ask {α : Type} (slot : Memo.Slot Registry Shape α) (question : Question α) :
    RawTerm → Access α
  | .atom name =>
      Memo.remember slot (RawTerm.atom name).shape (MonadExcept.ofExcept (question.atom name))
  | .node head lhs rhs =>
      Memo.remember slot (RawTerm.node head lhs rhs).shape do
        MonadExcept.ofExcept (question.head head)
        let (fn, arg) ← question.both (ask slot question lhs) (ask slot question rhs)
        MonadExcept.ofExcept (question.node lhs rhs fn arg)
  | .alien value =>
      if question.guarded then throw (question.alien value)
      else Memo.remember slot value.shape (throw (question.alien value))

/-- A term of which answers may be kept, or the reason why there is none. -/
def keyable (term : RawTerm) : Access RawTerm :=
  MonadExcept.ofExcept term.keyable?

/-- A term of which answers may be kept, where plain data are no operand. -/
def operand (term : RawTerm) : Access RawTerm := do
  keyable (← MonadExcept.ofExcept term.proper?)

/-- The term as it is written. -/
def render (term : RawTerm) : Access String := do
  ask textSlot .written (← operand term)

/-- Refuse an application that has no type. Both parts are written first, and where that fails it is
the reason that is given. -/
def refuse {α : Type} (refusal : IllTyped RawTerm) : Access α := do
  let _ ← render refusal.fn
  let _ ← render refusal.arg
  throw (.illTyped refusal)

/-- The principal type of a term. -/
def typeOf (term : RawTerm) : Access Ty := do
  let term ← operand term
  tryCatch (ask typeSlot .principalType term) fun
    | .illTyped refusal => refuse refusal
    | failure => throw failure

/-- The number of atoms of a term. -/
def size (term : RawTerm) : Access Nat := do
  ask sizeSlot .atomCount (← keyable term)

/-- The number of nodes around the most deeply nested atom. -/
def depth (term : RawTerm) : Access Nat := do
  ask depthSlot .nesting (← keyable term)

/-- The combinator term that a raw term stands for, whether or not that has a type. -/
def combinatorTerm (term : RawTerm) : Access Term := do
  ask combinatorSlot .combinatorTerm (← operand term)

/-- The application of one term to another, which need not have a type. -/
def applyUnchecked (lhs rhs : RawTerm) : Access Object := do
  register (← keyable (.node RawTerm.appHead lhs rhs))

/-- The application of one term to another, if it has a type. -/
def apply (lhs rhs : RawTerm) : Access Object := do
  let lhs ← MonadExcept.ofExcept lhs.proper?
  let rhs ← MonadExcept.ofExcept rhs.proper?
  let _ ← typeOf (.node RawTerm.appHead lhs rhs)
  applyUnchecked lhs rhs

/-- The application, or where it has no type the first term under `K`, applied to the second. -/
def applyOrKeep (lhs rhs : RawTerm) : Access Object :=
  tryCatch (apply lhs rhs) fun
    | .illTyped _ => do
        let kept ← apply (.atom "K") lhs
        apply kept.term rhs
    | failure => throw failure

/-- A term applied to several others in turn. -/
def applyAll (first : Object) (rest : List Object) : Access Object :=
  rest.foldlM (fun fn arg => apply fn.term arg.term) first

/-- One term applied to the other a given number of times. -/
def iterate (count : Nat) (fn arg : Object) : Access Object :=
  (List.replicate count fn).foldlM (fun arg fn => apply fn.term arg.term) arg

/-- One term applied to a given number of copies of the other. -/
def spine (count : Nat) (fn arg : Object) : Access Object :=
  applyAll fn (List.replicate count arg)

/-- The object of a combinator term, built part by part. -/
def build : Term → Access Object
  | .S => register (.atom "S")
  | .K => register (.atom "K")
  | .I => register (.atom "I")
  | .app fn arg => do
      let fn ← build fn
      let arg ← build arg
      apply fn.term arg.term

/-- The registered object of a combinator term. -/
def registered (term : Term) : Access Object :=
  register (.ofTerm term)

/-- The application of one typed term to another, if it has a type; it is registered and its type
remembered. -/
def applyTyped (fn arg : TypedTerm) : Access TypedTerm := do
  let lhs ← registered fn.term
  let rhs ← registered arg.term
  match fn.app? arg with
  | .ok application =>
      let node := RawTerm.node RawTerm.appHead lhs.term rhs.term
      modify fun state => { state with types := state.types.insert node.shape application.type }
      let _ ← register node
      return application
  | .error refusal =>
      refuse
        { fn := lhs.term, arg := rhs.term, fnType := refusal.fnType, argType := refusal.argType,
          reason := refusal.reason }

/-- The registry in which the atoms and the library are registered. -/
def initial : Registry :=
  let orders : Access Unit := do
    let _ ← [Term.S, Term.K, Term.I].mapM build
    let _ ← Library.entries.mapM fun entry => build entry.term
  (orders.run.run empty).2

/-- Check that a type is an instance of the principal type of a term. -/
def annotate (term : RawTerm) (type : RawTy) : ExceptT RawTy.Failure Access Unit := do
  let principal ← (typeOf term : Access Ty)
  let isInstance ← MonadExcept.ofExcept (type.isInstance? (.ofTy principal))
  if !isInstance then
    let text ← (render term : Access String)
    let typeText ← MonadExcept.ofExcept type.pretty?
    (throw (.noInstance text principal.pretty typeText) : Access Unit)

/-- The term as it is written, if it can be. -/
def text? (term : RawTerm) : StateM Registry (Option String) := do
  return (← (render term).run).toOption

/-- What is reported when an access is refused; none where no text can be made. The terms in it are
written like all others, so what has been written before need not be written again. -/
def report : Failure → StateM Registry (Option String)
  | .unknownAtom name => text? (.atom name)
  | .illTyped refusal => do
      let fnText? ← text? refusal.fn
      let argText? ← text? refusal.arg
      return do
        IllTyped.report (← fnText?) (← argText?) refusal.fnType refusal.argType refusal.reason
  | failure => return failure.message

end Registry
end Combinatory
