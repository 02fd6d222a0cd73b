import Combinatory.Evaluation.Effect
import Combinatory.Memo.Function

/-!
# Functions that call themselves through their table

A function over plain data may call itself, and these calls are answered from the table of its
results too. What it does with its arguments is a course: it ends, or makes a call and goes on with
what comes of it, a result or an error. It is noted when the function begins and when it has come to
a result.
-/

namespace Combinatory
namespace Memo

/-- What a function does with its arguments. -/
inductive Course (ε ν : Type) where
  /-- It ends with a result or an error. -/
  | ends (outcome : Except ε ν)
  /-- It calls itself and goes on with what comes of the call. -/
  | calls (args : List Datum) (next : Except ε ν → Course ε ν)

namespace Remembered

/-- What is noted about a function. -/
inductive Event where
  /-- The function has begun with the arguments. -/
  | began (args : List Datum)
  /-- The function has come to a result for the arguments. -/
  | completed (args : List Datum)

/-- A run of a function that calls itself. -/
abbrev Run (ε ν : Type) := ExceptT (Failure (Interruption ε)) (StateM (Remembered (List Event) ν))

/-- Note what has happened. -/
def note {ε ν : Type} (event : Event) : Run ε ν Unit :=
  modify fun remembered => { remembered with state := remembered.state ++ [event] }

/-- A result, or an error that the function raises. -/
def settle {ε ν : Type} (outcome : Except ε ν) : Run ε ν ν :=
  MonadExcept.ofExcept (outcome.mapError fun error => .raised (.raised error))

/-- What comes of a call. It is no obstacle to going on if the function has raised an error. -/
def attempt {ε ν : Type} (run : Run ε ν ν) : Run ε ν (Except ε ν) :=
  tryCatch (do return .ok (← run)) fun
    | .raised (.raised error) => return .error error
    | failure => throw failure

/-- Follow a course, where calls are made by `call`. -/
def follow {ε ν : Type} (call : List Datum → Run ε ν ν) : Course ε ν → Run ε ν ν
  | .ends outcome => settle outcome
  | .calls args next => do
      let given ← attempt (call args)
      follow call (next given)

/-- Run the function on arguments, where it calls itself by `call`. -/
def runFunction {ε ν : Type} (call : List Datum → Run ε ν ν) (function : List Datum → Course ε ν)
    (args : List Datum) : Run ε ν ν := do
  note (.began args)
  let result ← follow call (function args)
  note (.completed args)
  return result

/-- Call a function that calls itself, where all calls are answered from the table of its results if
they can be. The steps bound how deep the calls are nested. -/
def callNested {ε ν : Type} (arity : Arity) (function : List Datum → Course ε ν) :
    Nat → List Datum → Run ε ν ν
  | 0, _ => throw (.raised .unfinished)
  | steps + 1, args => callWith arity (runFunction (callNested arity function steps) function) args

/-- Make one call after another. -/
def callAll {ε ν : Type} (call : List Datum → Run ε ν ν) (calls : List (List Datum)) :
    StateM (Remembered (List Event) ν) (List (Except (Failure (Interruption ε)) ν)) :=
  calls.mapM fun args => (call args).run

end Remembered
end Memo
end Combinatory
