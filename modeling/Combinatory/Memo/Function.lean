import Combinatory.Datum
import Combinatory.Memo.Basic

/-!
# Functions with remembered results

A function over plain data, with a state and errors of its own, is called through a table of its
results. The results are kept by the shape of the arguments, so equal arguments share one.
-/

namespace Combinatory
namespace Memo

/-- What the results of a function are kept by. -/
inductive Arity where
  /-- Its one argument. -/
  | one
  /-- The tuple of its arguments, however many. -/
  | any
  deriving DecidableEq, Inhabited, Repr

/-- The state of a function and the results remembered of it. -/
structure Remembered (σ ν : Type) where
  /-- The state of the function. -/
  state : σ
  /-- The results by the shape of the arguments. -/
  results : Std.HashMap Shape ν

namespace Remembered

/-- Why a call fails. -/
inductive Failure (ε : Type) where
  /-- The number of arguments does not fit. -/
  | wrongArguments
  /-- An argument cannot be part of a key. -/
  | notAKey (reason : Datum.Unkeyable)
  /-- The function raised an error. -/
  | raised (error : ε)
  deriving Inhabited

/-- A function before its first call. -/
def start {σ ν : Type} (state : σ) : Remembered σ ν := { state, results := ∅ }

/-- Where the results are kept. -/
def slot {σ ν : Type} : Slot (Remembered σ ν) Shape ν :=
  ⟨results, fun table remembered => { remembered with results := table }⟩

/-- The data that the result of a call is kept by. -/
def key? : Arity → List Datum → Option Datum
  | .one, [arg] => some arg
  | .one, _ => none
  | .any, args => some (.tuple args)

/-- Answer a call from the table, or run what the function does and keep the result. -/
def callWith {σ ε ν : Type} (arity : Arity)
    (body : List Datum → ExceptT (Failure ε) (StateM (Remembered σ ν)) ν) (args : List Datum) :
    ExceptT (Failure ε) (StateM (Remembered σ ν)) ν :=
  match key? arity args with
  | none => throw .wrongArguments
  | some key =>
      match key.unkeyable? with
      | some reason => throw (.notAKey reason)
      | none => remember slot key.shape (body args)

/-- Call the function itself. -/
def callFunction {σ ε ν : Type} (function : List Datum → ExceptT ε (StateM σ) ν)
    (args : List Datum) : ExceptT (Failure ε) (StateM (Remembered σ ν)) ν :=
  ExceptT.mk fun remembered =>
    let (outcome, state) := (function args).run remembered.state
    (outcome.mapError .raised, { remembered with state })

/-- Call the function, or answer from the table. -/
def call {σ ε ν : Type} (arity : Arity) (function : List Datum → ExceptT ε (StateM σ) ν) :
    List Datum → ExceptT (Failure ε) (StateM (Remembered σ ν)) ν :=
  callWith arity (callFunction function)

/-- What is reported when a call fails; none where the failure speaks for itself. -/
def Failure.message {ε : Type} (messageOf : ε → Option String) : Failure ε → Option String
  | wrongArguments => none
  | notAKey reason => some reason.message
  | raised error => messageOf error

end Remembered
end Memo
end Combinatory
