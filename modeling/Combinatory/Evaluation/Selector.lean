import Combinatory.Evaluation.Value
import Combinatory.Term.Library

/-!
# Truth values as selectors

In calls of combinators a truth value is a function of two arguments that chooses one of them.
-/

namespace Combinatory
namespace Host

variable {H σ ε : Type}

/-- The selector for a truth value. -/
def encode (host : Host H σ ε) (steps : Nat) (flag : Bool) : Effect σ ε (Value H) :=
  host.evaluate steps (Library.selector flag)

/-- What a selector chooses of two values. -/
def choose (host : Host H σ ε) (steps : Nat) (selector first second : Value H) :
    Effect σ ε (Value H) := do
  let chooser ← host.apply steps selector first
  host.apply steps chooser second

end Host
end Combinatory
