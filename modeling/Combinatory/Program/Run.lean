import Combinatory.Evaluation.Selector
import Combinatory.Program.Basic

/-!
# Running host programs

Arguments are evaluated from left to right, and a name is looked up among the names around the
expression before the session, at the time the expression is evaluated. A computation put off runs
when it is forced; when it completes, its result is kept, and when it fails it stays as it was.

A combinator term is put together whenever its expression is evaluated, on the one workbench of the
run. A run is granted a number of nested steps, as is every call inside it.
-/

namespace Combinatory
namespace Program

/-- A run of a host program. -/
abbrev Run := Effect Machine Failure

/-- An error of the program's own. -/
def fail {α : Type} (message : String) : Run α :=
  Effect.raise (.host message)

/-- Work on the workbench of the run. -/
def onBench {α : Type} (work : Lambda.Work α) : Run α := do
  let machine ← get
  let (outcome, bench) := work.run.run machine.bench
  set { machine with bench }
  match outcome with
  | .ok result => return result
  | .error (.raised reason) => Effect.raise (.noTerm reason)
  | .error .unfinished => throw .unfinished

/-- The value of a literal. -/
def literal (value : Literal) : Val :=
  .host (.literal value)

/-- Note the call of a traced symbol. -/
def record (symbol arg : Val) : Run Unit :=
  modify fun machine =>
    { machine with trace := (shown machine symbol, shown machine arg) :: machine.trace }

/-- Call a value of the host's own, where `evaluate` evaluates the body of a function. -/
def callForeign (evaluate : Scope → Expr → Run Val) : Foreign → Val → Run Val
  | .symbol name traced args, arg => do
      if traced then record (.host (.symbol name traced args)) arg
      return .host (.symbol name traced (args ++ [arg]))
  | .boom message, _ => fail message
  | .closure param body scope, arg => evaluate ((param, arg) :: scope) body
  | .literal _, _ => Effect.raise .notCallable
  | .procedure _ _, _ => Effect.raise .notCallable
  | .thunk _, _ => Effect.raise .notCallable

/-- The host in which the body of a function is evaluated by `evaluate`. -/
def hostOf (evaluate : Scope → Expr → Run Val) : Host Foreign Machine Failure :=
  ⟨callForeign evaluate⟩

/-- Call a function without an argument, where `evaluate` evaluates the body of a function. Only a
function without parameters takes the call well. -/
def callWithNone (evaluate : Scope → Expr → Run Val) : Val → Run Val
  | .host (.procedure body scope) => evaluate scope body
  | .host (.symbol _ _ _) => fail "called with 0 arguments"
  | .host (.closure _ _ _) => fail "called with 0 arguments"
  | .host (.boom message) => fail message
  | _ => Effect.raise .notCallable

/-- Put off a computation. -/
def suspend (computation : Computation) : Run Val := do
  let number := (← get).thunks.size
  modify fun machine => { machine with thunks := machine.thunks.push (.pending computation) }
  return .host (.thunk number)

/-- Put off the call of a function; a computation put off is left as it is. -/
def delay : Val → Run Val
  | .host (.thunk number) => return .host (.thunk number)
  | .host (.literal value) => Effect.raise (.cannotDelay value)
  | fn => suspend (.call fn)

/-- Run a computation, where `evaluate` evaluates expressions. -/
def compute (evaluate : Scope → Expr → Run Val) : Computation → Run Val
  | .suspended body scope => evaluate scope body
  | .call fn => callWithNone evaluate fn

/-- The result of a computation put off; any other value is its own result. -/
def force (evaluate : Scope → Expr → Run Val) : Val → Run Val
  | .host (.thunk number) => do
      match (← get).thunks[number]? with
      | some (.forced result) => return result
      | some (.pending computation) =>
          let result ← compute evaluate computation
          modify fun machine =>
            { machine with thunks := machine.thunks.setIfInBounds number (.forced result) }
          return result
      | none => Effect.raise .notCallable
  | value => return value

/-- The integer that a value is. -/
def integer : Val → Run Int
  | .host (.literal (.int value)) => return value
  | _ => fail "not an integer"

/-- Does the value count as true? All but some literals do. -/
def isTruthy : Val → Bool
  | .host (.literal value) => value.isTruthy
  | _ => true

/-- The truth value that a selector chooses between true and false. -/
def decode (host : Host Foreign Machine Failure) (steps : Nat) (selector : Val) : Run Bool := do
  match ← host.choose steps selector (literal (.bool true)) (literal (.bool false)) with
  | .host (.literal (.bool flag)) => return flag
  | _ => Effect.raise .notASelector

/-- The computation that a selector chooses, run; the other one is never run. -/
def branch (evaluate : Scope → Expr → Run Val) (steps : Nat)
    (selector first second : Val) : Run Val := do
  let host := hostOf evaluate
  let first ← delay first
  let chooser ← host.apply steps selector first
  let second ← delay second
  let chosen ← host.apply steps chooser second
  force evaluate chosen

/-- The value that a name is bound to, around the expression or in the session. -/
def lookup (scope : Scope) (name : String) : Run Val := do
  match scope.lookup name with
  | some value => return value
  | none =>
      match (← get).session.lookup name with
      | some value => return value
      | none => fail ("no value " ++ name)

/-- Count one more. -/
def increment (counter : String) : Run Nat := do
  let count := ((← get).counters.lookup counter).getD 0 + 1
  modify fun machine => { machine with counters := (counter, count) :: machine.counters }
  return count

/-- Are the two values the same computation put off, or the same shared literal? -/
def isSame : Val → Val → Bool
  | .host (.thunk left), .host (.thunk right) => left == right
  | .host (.literal left), .host (.literal right) => left.isShared && left == right
  | _, _ => false

/-- The value of an expression among the names around it, granted a number of nested steps. -/
def evaluate : Nat → Scope → Expr → Run Val
  | 0, _, _ => throw .unfinished
  | steps + 1, scope, expr =>
      let continued : Scope → Expr → Run Val := evaluate steps
      let host := hostOf continued
      match expr with
      | .literal value => return literal value
      | .term source => do
          host.evaluate steps (← onBench (source.combinatorTerm (Lambda.perform steps)))
      | .get name => lookup scope name
      | .symbol name => return .host (.symbol name true [])
      | .boom message => return .host (.boom message)
      | .raise message => fail message
      | .function param body => return .host (.closure param body scope)
      | .procedure body => return .host (.procedure body scope)
      | .apply fn args => do
          let fn ← continued scope fn
          args.foldlM (fun fn arg => do host.apply steps fn (← continued scope arg)) fn
      | .arithmetic operation left right => do
          let left ← integer (← continued scope left)
          let right ← integer (← continued scope right)
          return literal (.int (operation.compute left right))
      | .count counter => return literal (.int (← increment counter))
      | .thunk body => suspend (.suspended body scope)
      | .delay fn => do delay (← continued scope fn)
      | .force value => do force continued (← continued scope value)
      | .encode value => do
          let flag := isTruthy (← continued scope value)
          let selector := RawTerm.ofTerm (Library.selector flag)
          let _ ← onBench (Lambda.consult (Registry.combinatorTerm selector))
          host.encode steps flag
      | .decode selector => do
          return literal (.bool (← decode host steps (← continued scope selector)))
      | .branch selector first second => do
          let selector ← continued scope selector
          let first ← continued scope first
          let second ← continued scope second
          branch continued steps selector first second
      | .same left right => do
          let left ← continued scope left
          let right ← continued scope right
          return literal (.bool (isSame left right))

/-- A function is shown by calling it on a symbol, down to the given number of nested functions. -/
def reify (levels : Nat) : Nat → Nat → Val → Run Shown
  | 0, _, _ => throw .unfinished
  | steps + 1, level, value => do
      match value with
      | .host (.symbol name _ args) => do
          return .symbol name (← args.mapM (reify levels steps level))
      | .host (.literal _) => return shown (← get) value
      | .host (.thunk _) => return shown (← get) value
      | _ =>
          if level < levels then
            let param := "v" ++ toString level
            let host := hostOf (evaluate steps)
            let result ← host.apply steps value (.host (.symbol param false []))
            return .lambda param (← reify levels steps (level + 1) result)
          else return .function

/-- One step of a session: an expression, the name for its value, and how to show it. -/
structure Step where
  /-- The expression. -/
  expr : Expr
  /-- The name that the value gets, if any. -/
  name? : Option String
  /-- The number of nested functions to show by calling them, if any are. -/
  levels? : Option Nat

/-- A step that has run: what it shows, and the calls of traced symbols from first to last. -/
structure Report where
  /-- The value as shown, or how the run was interrupted. -/
  outcome : Except (Reported Failure) Shown
  /-- The traced calls. -/
  trace : List (Shown × Shown)

/-- What is reported about a failed run; none where the failure speaks for itself or no text can be
made. -/
def report (steps : Nat) : Failure → StateM Machine (Option String)
  | .host message => return some message
  | .notCallable => return none
  | .cannotDelay value => return some ("Cannot delay a non-callable: " ++ value.quoted)
  | .notASelector => return some "Not a boolean selector"
  | .noTerm reason => modifyGet fun machine =>
      let (message, bench) := (Lambda.report (Lambda.perform steps) reason).run machine.bench
      (message, { machine with bench })

/-- Evaluate the expression of a step, bind its name, and show the value. -/
def Step.evaluate (steps : Nat) (step : Step) : Run Shown := do
  let value ← Program.evaluate steps [] step.expr
  if let some name := step.name? then
    modify fun machine => { machine with session := (name, value) :: machine.session }
  match step.levels? with
  | some levels => reify levels steps 0 value
  | none => return shown (← get) value

/-- Run a step in a state. -/
def Step.run (steps : Nat) (step : Step) : StateM Machine Report := do
  modify fun machine => { machine with trace := [] }
  let outcome ← Effect.reported (report steps) (step.evaluate steps)
  return { outcome, trace := (← get).trace.reverse }

/-- Run the steps of a session one after another. -/
def run (steps : Nat) (session : List Step) : List Report :=
  ((session.mapM (Step.run steps)).run .initial).1

end Program
end Combinatory
