import Combinatory.Datum
import Combinatory.Evaluation.Effect
import Combinatory.Lambda.Open
import Combinatory.Lambda.Signature
import Combinatory.Term.Registry

/-!
# Functions that denote combinators

Combinators may be written as functions with named parameters. A function is compiled by calling it
on new variables and abstracting them from the expression that comes back. A combinator object wraps
a function, is compiled when it is first needed, and keeps the term from then on.

This module holds the expressions in which functions are written, the objects they work with, and
the state of a session: the named objects, the combinators, the terms put together, and the log.
-/

namespace Combinatory
namespace Lambda

/-- What an expression does with the objects of its parts. -/
inductive Form where
  /-- Apply expressions. -/
  | app
  /-- Call an object. -/
  | call
  /-- Apply one object to another by the infix operator. -/
  | infixApp
  /-- Make an application without reading or checking its parts. -/
  | rawApp
  /-- Read an object as an expression. -/
  | asExpr
  /-- Abstract a variable. -/
  | abstract
  /-- Wrap an object as a combinator. -/
  | combinator
  /-- The term of a combinator. -/
  | term
  deriving DecidableEq, Inhabited, Repr

/-- An expression in which functions are written. -/
inductive Expr where
  /-- The object of a name: a parameter, an object of the session, or an atom. -/
  | name (name : String)
  /-- A new variable. -/
  | newVar (name : String)
  /-- A term of the library. -/
  | library (name : Datum)
  /-- Plain data. The place where they are written tells them apart from equal ones. -/
  | datum (place : Nat) (value : Datum)
  /-- A function, whose body is evaluated when it is called. Its default values are closed terms. -/
  | function (name : String) (signature : Signature TypedTerm) (body : Expr)
  /-- A form applied to the objects of its parts, evaluated from left to right. -/
  | form (form : Form) (parts : List Expr)
  deriving Inhabited

/-- An object that is not an expression. -/
inductive Extra where
  /-- A function with the names around it. Its parameters carry their default values as objects. -/
  | function (serial : Nat) (name : String) (signature : Signature (Open Extra)) (body : Expr)
      (scope : List (String × Open Extra))
  /-- A combinator, by its number, with its name if it has one. -/
  | combinator (number : Nat) (name? : Option String)
  /-- Plain data, with the place where they are written. -/
  | datum (place : Nat) (value : Datum)
  /-- Arguments that were left over. -/
  | tuple (serial : Nat) (items : List (Open Extra))
  /-- No keyword arguments left over. -/
  | noKeywords (serial : Nat)
  deriving Inhabited

/-- An object of a session. -/
abbrev Object := Open Extra

/-- The names bound around an expression, the innermost first. -/
abbrev Scope := List (String × Object)

/-- A combinator of a session. -/
structure Combinator where
  /-- The object that it wraps. -/
  source : Object
  /-- The name of the function it wraps; other objects have none. -/
  name? : Option String
  /-- Is it being compiled? -/
  compiling : Bool
  /-- The term, once it has been compiled. -/
  term? : Option TypedTerm
  deriving Inhabited

/-- The state of a session. -/
structure Workbench where
  /-- The number of the next variable, application or function. -/
  nextSerial : Nat
  /-- The combinators by number. -/
  combinators : Array Combinator
  /-- The terms put together so far. -/
  terms : Registry
  /-- The named objects, the newest first. -/
  session : Scope
  /-- The log, the newest line first. -/
  log : List String
  deriving Inhabited

/-- The state in which a session begins. -/
def Workbench.initial : Workbench :=
  { nextSerial := 0, combinators := #[], terms := .initial, session := [], log := [] }

/-- Why work with functions fails. -/
inductive Failure where
  /-- Nothing has this name. -/
  | undefined (name : String)
  /-- The library has nothing of this name. -/
  | notInLibrary (reason : Library.LookupFailure)
  /-- The object, as written, cannot be read as an expression. -/
  | notConvertible (text : String)
  /-- An application needs at least one object. -/
  | noArguments
  /-- Such a function, as written, cannot be compiled. -/
  | unsupportedSignature (text : String)
  /-- A compiled function mentions variables that are not its own. -/
  | unbound (names : List String)
  /-- The term of a combinator is needed to compile it. -/
  | recursive (name : String)
  /-- The object, as written, cannot be wrapped as a combinator. -/
  | notWrappable (text : String)
  /-- A variable was expected. -/
  | notAVariable (object : Object)
  /-- The variables of something were asked for that is no expression. -/
  | notAnExpression (value : Extra)
  /-- The registry of terms refuses something. -/
  | term (reason : RawTerm.Failure)
  /-- An object was called, applied or compiled that does not allow it. -/
  | notApplicable
  /-- An object does not have what was asked of it. -/
  | noAttribute
  deriving Inhabited

/-- Work in a session. -/
abbrev Work := Effect Workbench Failure

/-- Consult the registry of terms. -/
def consult {α : Type} (access : Registry.Access α) : Work α := do
  let bench ← get
  let (outcome, terms) := access.run.run bench.terms
  set { bench with terms }
  match outcome with
  | .ok result => return result
  | .error reason => Effect.raise (.term reason)

end Lambda
end Combinatory
