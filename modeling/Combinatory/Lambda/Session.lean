import Combinatory.Lambda.Compile

/-!
# Sessions

A session is worked through request by request. A request that fails leaves the named objects as
they were, but combinators that were compiled on the way keep their terms.
-/

namespace Combinatory
namespace Lambda

/-- A request in a session. -/
inductive Request where
  /-- Define a combinator by a function of that name. -/
  | define (name : String) (signature : Signature TypedTerm) (body : Expr)
  /-- Name an object. -/
  | bind (name : String) (expr : Expr)
  /-- Show an object. -/
  | exhibit (expr : Expr)
  /-- Compile a function and show the term. -/
  | compile (expr : Expr)
  /-- Write an object by the operations that build it. -/
  | constructorForm (expr : Expr)
  /-- List the names of the variables of an expression. -/
  | freeVars (expr : Expr)
  /-- Ask whether two objects are the same one. -/
  | same (left right : Expr)
  deriving Inhabited

/-- The reply to a request. -/
inductive Reply where
  /-- A term with its principal type. -/
  | term (value : TypedTerm)
  /-- A variable, as written. -/
  | var (text : String)
  /-- An application that is not closed, as written, or the failure of writing it. -/
  | app (text : Except (Reported Failure) String)
  /-- A combinator, by its name if it has one. -/
  | combinator (name? : Option String)
  /-- A function that is not a combinator. -/
  | function
  /-- Plain data. -/
  | datum (value : Datum)
  /-- Arguments that were left over, as written. -/
  | tuple (text : String)
  /-- No keyword arguments left over. -/
  | noKeywords
  /-- A text. -/
  | text (value : String)
  /-- Names in alphabetical order, one for each variable. -/
  | names (values : List String)
  /-- A truth value. -/
  | flag (value : Bool)
  deriving Inhabited

/-- How an object is shown. -/
def exhibit (perform : Task → Work Object) : Object → Work Reply
  | .term value => return .term value
  | .var x => return .var x.name
  | .app serial fn arg => do
      return .app (← Effect.reported (report perform) (text perform (.app serial fn arg)))
  | .foreign (.combinator _ name?) => return .combinator name?
  | .foreign (.function _ _ _ _ _) => return .function
  | .foreign (.datum _ value) => return .datum value
  | .foreign (.tuple serial items) => do
      return .tuple (← text perform (.foreign (.tuple serial items)))
  | .foreign (.noKeywords _) => return .noKeywords

/-- Are the two objects the same one? Terms are when they are equal, and so are small data; other
data are when they are written in the same place. -/
def isSame : Object → Object → Bool
  | .term left, .term right => left == right
  | .var left, .var right => left == right
  | .app left _ _, .app right _ _ => left == right
  | .foreign (.function left _ _ _ _), .foreign (.function right _ _ _ _) => left == right
  | .foreign (.combinator left _), .foreign (.combinator right _) => left == right
  | .foreign (.datum leftPlace left), .foreign (.datum rightPlace right) =>
      leftPlace == rightPlace || left.areOneObject right
  | .foreign (.tuple left leftItems), .foreign (.tuple right rightItems) =>
      left == right || (leftItems.isEmpty && rightItems.isEmpty)
  | .foreign (.noKeywords left), .foreign (.noKeywords right) => left == right
  | _, _ => false

/-- Name an object of the session. -/
def bindName (name : String) (object : Object) : Work Unit :=
  modify fun bench => { bench with session := (name, object) :: bench.session }

/-- Fulfil a request. -/
def Request.fulfil (perform : Task → Work Object) : Request → Work Reply
  | define name signature body => do
      let function ← perform (.evaluate [] (.function name signature body))
      let combinator ← wrap perform function
      bindName name combinator
      Lambda.exhibit perform combinator
  | bind name expr => do
      let object ← perform (.evaluate [] expr)
      bindName name object
      Lambda.exhibit perform object
  | exhibit expr => do Lambda.exhibit perform (← perform (.evaluate [] expr))
  | compile expr => do
      return .term (← Lambda.compile perform (← perform (.evaluate [] expr)))
  | constructorForm expr => do
      return .text (← Lambda.constructorForm perform (← perform (.evaluate [] expr)))
  | freeVars expr => do
      let xs ← Lambda.freeVars (← perform (.evaluate [] expr))
      return .names ((xs.map Var.name).mergeSort (· ≤ ·))
  | same left right => do
      let left ← perform (.evaluate [] left)
      let right ← perform (.evaluate [] right)
      return .flag (isSame left right)

/-- A request that has been worked through, with the lines logged on the way. -/
structure Report where
  /-- The reply, or how the work was interrupted. -/
  outcome : Except (Reported Failure) Reply
  /-- The lines of the log from first to last. -/
  log : List String

/-- Work through a request, granted a number of nested steps. -/
def Request.run (steps : Nat) (request : Request) : StateM Workbench Report := do
  modify fun bench => { bench with log := [] }
  let outcome ← Effect.reported (report (perform steps)) (request.fulfil (perform steps))
  return { outcome, log := (← get).log.reverse }

/-- Work through the requests of a session one after another. -/
def run (steps : Nat) (session : List Request) : List Report :=
  ((session.mapM (Request.run steps)).run .initial).1

end Lambda
end Combinatory
