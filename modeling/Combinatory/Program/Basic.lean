import Combinatory.Evaluation.Value
import Combinatory.Source

/-!
# Host programs

A host program works with plain literals, functions of its own, symbols that stand for unknown
functions, computations put off until they are forced, and the values of combinator terms, which it
can pass around and call like any other function.

This module holds the expressions of host programs, their values, and the state that a run keeps:
named values, counters, the computations put off, the workbench on which terms are put together, and
the calls of traced symbols.
-/

namespace Combinatory
namespace Program

/-- An operation on two integers. -/
inductive Arithmetic where
  /-- The sum. -/
  | add
  /-- The difference. -/
  | sub
  /-- The product. -/
  | mul
  deriving DecidableEq, Inhabited, Repr

/-- The result of an operation on two integers. -/
def Arithmetic.compute : Arithmetic → Int → Int → Int
  | add, left, right => left + right
  | sub, left, right => left - right
  | mul, left, right => left * right

/-- An expression of a host program. -/
inductive Expr where
  /-- A literal. -/
  | literal (value : Literal)
  /-- The value of a combinator term, which is put together when the expression is evaluated. -/
  | term (source : Source)
  /-- The value that a name is bound to, around the expression or in the session. -/
  | get (name : String)
  /-- A symbol whose calls are traced. -/
  | symbol (name : String)
  /-- A function that raises an error whenever it is called. -/
  | boom (message : String)
  /-- An error raised at once. -/
  | raise (message : String)
  /-- A function of one parameter. -/
  | function (param : String) (body : Expr)
  /-- A function without parameters. -/
  | procedure (body : Expr)
  /-- A function called with arguments in turn, each evaluated just before its call. -/
  | apply (fn : Expr) (args : List (Expr))
  /-- An operation on two integers, the left one evaluated and checked first. -/
  | arithmetic (operation : Arithmetic) (left right : Expr)
  /-- One more on a counter. -/
  | count (counter : String)
  /-- A computation put off. -/
  | thunk (body : Expr)
  /-- The call of a function, put off. -/
  | delay (fn : Expr)
  /-- The result of a computation put off. -/
  | force (value : Expr)
  /-- The selector for whether a value counts as true. -/
  | encode (value : Expr)
  /-- The truth value that a selector chooses. -/
  | decode (selector : Expr)
  /-- The one of two computations that a selector chooses. -/
  | branch (selector first second : Expr)
  /-- Whether two computations put off, or two literals, are the same one. -/
  | same (left right : Expr)
  deriving Inhabited

/-- A value of the host's own. -/
inductive Foreign where
  /-- A literal, which cannot be called. -/
  | literal (value : Literal)
  /-- A symbol applied to arguments. -/
  | symbol (name : String) (traced : Bool) (args : List (Value Foreign))
  /-- A function that raises an error whenever it is called. -/
  | boom (message : String)
  /-- A function of one parameter with the names around it. -/
  | closure (param : String) (body : Expr) (scope : List (String × Value Foreign))
  /-- A function without parameters with the names around it. -/
  | procedure (body : Expr) (scope : List (String × Value Foreign))
  /-- A computation put off, by its number. -/
  | thunk (number : Nat)

/-- A value of a host program. -/
abbrev Val := Value Foreign

/-- The names bound around an expression, the innermost first. -/
abbrev Scope := List (String × Val)

/-- A computation that takes no argument. -/
inductive Computation where
  /-- The evaluation of an expression among the names around it. -/
  | suspended (body : Expr) (scope : Scope)
  /-- The call of a function without arguments. -/
  | call (fn : Val)

/-- A computation put off. -/
inductive Thunk where
  /-- It has not been completed. -/
  | pending (computation : Computation)
  /-- It has been completed with this result. -/
  | forced (result : Val)
  deriving Inhabited

/-- Why a run fails. -/
inductive Failure where
  /-- The program raised an error of its own. -/
  | host (message : String)
  /-- Something was called that cannot be called like this. -/
  | notCallable
  /-- Something was put off that cannot be called at all. -/
  | cannotDelay (value : Literal)
  /-- A selector chose something else than a truth value. -/
  | notASelector
  /-- A term could not be put together. -/
  | noTerm (reason : Lambda.Failure)
  deriving Inhabited

/-- A value as it is shown. -/
inductive Shown where
  /-- A literal. -/
  | literal (value : Literal)
  /-- A symbol and its arguments. -/
  | symbol (name : String) (args : List Shown)
  /-- A computation put off, and whether it has been completed. -/
  | thunk (forced : Bool)
  /-- A function. -/
  | function
  /-- A function by the result of calling it on a symbol. -/
  | lambda (param : String) (body : Shown)
  deriving Inhabited

/-- The state of a run. -/
structure Machine where
  /-- The named values, the newest first. -/
  session : Scope
  /-- The counters that have been used. -/
  counters : List (String × Nat)
  /-- The computations put off so far, by number. -/
  thunks : Array Thunk
  /-- The workbench on which terms are put together. -/
  bench : Lambda.Workbench
  /-- The calls of traced symbols, the newest first: the symbol before the call and the argument. -/
  trace : List (Shown × Shown)
  deriving Inhabited

namespace Machine

/-- The state in which a run begins. -/
def initial : Machine :=
  { session := [], counters := [], thunks := #[], bench := .initial, trace := [] }

/-- Has the computation with the given number been completed? -/
def isForced (machine : Machine) (number : Nat) : Bool :=
  match machine.thunks[number]? with
  | some (.forced _) => true
  | _ => false

end Machine

mutual

/-- A value as it is shown in a given state. -/
def shown (machine : Machine) : Val → Shown
  | .host value => shownForeign machine value
  | _ => .function

/-- A value of the host's own as it is shown in a given state. -/
def shownForeign (machine : Machine) : Foreign → Shown
  | .literal value => .literal value
  | .symbol name _ args => .symbol name (shownAll machine args)
  | .boom _ => .function
  | .closure _ _ _ => .function
  | .procedure _ _ => .function
  | .thunk number => .thunk (machine.isForced number)

/-- Several values as they are shown in a given state. -/
def shownAll (machine : Machine) : List Val → List Shown
  | [] => []
  | value :: values => shown machine value :: shownAll machine values

end

end Program
end Combinatory
