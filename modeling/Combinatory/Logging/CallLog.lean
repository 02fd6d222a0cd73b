import Combinatory.Term.Registry

/-!
# Logged calls

A call of a logged function writes one line with the arguments before it runs and one line with the
result after it. Every argument has its own format, by position or by keyword, and so has the
result; where none is given the argument is written by the operations that build it.
-/

namespace Combinatory
namespace CallLog

/-- How an argument or a result is written. -/
inductive Format where
  /-- As it is written on its own. -/
  | display
  /-- By the operations that build it. -/
  | constructorForm
  /-- As a term. -/
  | render
  /-- As the principal type of a term. -/
  | type
  /-- As the same text whatever it is. -/
  | constant
  deriving DecidableEq, Inhabited, Repr

/-- The formats of a logged function. -/
structure Formats where
  /-- The formats of arguments given by position. -/
  positional : List Format
  /-- The formats of arguments given by keyword, and of the result under the keyword `returns`. -/
  named : List (String × Format)
  deriving Inhabited

/-- Why a logged call fails. -/
inductive Failure where
  /-- An argument or the result cannot be written in its format. -/
  | format (reason : RawTerm.Failure)
  /-- The function raised an error of its own. -/
  | host (message : String)
  deriving Inhabited

/-- Write an argument or a result. -/
def Format.apply : Format → RawTerm → Registry.Access String
  | display, .alien value => return value.display
  | display, term => Registry.render term
  | constructorForm, term => return term.constructorForm
  | render, term => Registry.render term
  | type, term => do return (← Registry.typeOf term).pretty
  | constant, _ => return "..."

/-- The format of the argument at a position. -/
def Formats.at (formats : Formats) (position : Nat) : Format :=
  formats.positional[position]?.getD .constructorForm

/-- The format of the argument of a keyword. -/
def Formats.of (formats : Formats) (keyword : String) : Format :=
  (formats.named.lookup keyword).getD .constructorForm

/-- The line written before a call. -/
def callLine (formats : Formats) (name : String) (args : List RawTerm)
    (keywords : List (String × RawTerm)) : Registry.Access String := do
  let positional ← args.zipIdx.mapM fun (arg, position) => (formats.at position).apply arg
  let named ← keywords.mapM fun (keyword, arg) => do
    return keyword ++ "=" ++ (← (formats.of keyword).apply arg)
  return name ++ "(" ++ ", ".intercalate (positional ++ named) ++ ")"

/-- The line written after a call. -/
def returnLine (formats : Formats) (result : RawTerm) : Registry.Access String := do
  return " return " ++ (← (formats.of "returns").apply result)

/-- What is reported when a logged call fails. -/
def Failure.report : Failure → StateM Registry (Option String)
  | format reason => Registry.report reason
  | host message => return some message

/-- A logged call that is over. -/
structure Report where
  /-- The lines written. -/
  lines : List String
  /-- Why the call failed, if it did, with what is reported about it. -/
  failure? : Option (Failure × Option String)

/-- Report a failed call and the lines written before it failed. -/
def failed (lines : List String) (failure : Failure) : StateM Registry Report := do
  return { lines, failure? := some (failure, ← failure.report) }

/-- Call a function with logging. -/
def call (formats : Formats) (name : String)
    (function : List RawTerm → List (String × RawTerm) → Except String RawTerm)
    (args : List RawTerm) (keywords : List (String × RawTerm)) : StateM Registry Report := do
  match ← (callLine formats name args keywords).run with
  | .error reason => failed [] (.format reason)
  | .ok before =>
      match function args keywords with
      | .error message => failed [before] (.host message)
      | .ok result =>
          match ← (returnLine formats result).run with
          | .error reason => failed [before] (.format reason)
          | .ok after => return { lines := [before, after], failure? := none }

end CallLog
end Combinatory
