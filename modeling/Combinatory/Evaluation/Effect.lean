/-!
# Effects of running something

A run carries a state along and ends in a result, in an error, or in neither, when the steps granted
to it do not suffice. An error keeps the changes made to the state before it.
-/

namespace Combinatory

/-- How a run ends that has no result. -/
inductive Interruption (ε : Type) where
  /-- An error was raised. -/
  | raised (error : ε)
  /-- The granted steps were used up. -/
  | unfinished
  deriving Inhabited

/-- How a run ended that has no result, with what is reported about it. -/
structure Reported (ε : Type) where
  /-- How the run ended. -/
  interruption : Interruption ε
  /-- The text that is reported, if there is one. -/
  message : Option String
  deriving Inhabited

/-- A run over states of type `σ` with errors of type `ε`. -/
abbrev Effect (σ ε : Type) := ExceptT (Interruption ε) (StateM σ)

namespace Effect

/-- Raise an error. -/
def raise {σ ε α : Type} (error : ε) : Effect σ ε α :=
  throw (.raised error)

/-- Continue with a result that is there, or raise the error that is in its place. -/
def ofExcept {σ ε α : Type} : Except ε α → Effect σ ε α
  | .ok result => return result
  | .error error => raise error

/-- The result of a run, or how it ended without one. What is reported about an error is found out
at once, in the state in which the error was raised. -/
def reported {σ ε α : Type} (report : ε → StateM σ (Option String)) (run : Effect σ ε α) :
    StateM σ (Except (Reported ε) α) := do
  match ← ExceptT.run run with
  | .ok result => return .ok result
  | .error (.raised error) =>
      return .error { interruption := .raised error, message := ← report error }
  | .error .unfinished => return .error { interruption := .unfinished, message := none }

end Effect
end Combinatory
