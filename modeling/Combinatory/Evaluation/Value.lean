import Combinatory.Evaluation.Effect
import Combinatory.Term.Basic

/-!
# Evaluation of combinator terms

A term evaluates to a curried function. `S`, `K` and `I` are fixed functions, and an application
calls the value of its function part on the value of its argument part. The values of a host program
take part in this: a call of one of them is whatever the host makes of it, and such a call happens
only where an equation of a combinator applies the value. `K` in particular never touches its second
argument.

Terms without a type can call on and on, so a call is granted a number of nested steps.
-/

namespace Combinatory

/-- A value that combinators act on, where `H` is the type of the host's own values. -/
inductive Value (H : Type) where
  /-- A value of the host. -/
  | host (value : H)
  /-- The function of `I`. -/
  | identity
  /-- The function of `K`. -/
  | constant
  /-- The function of `K x`. -/
  | constantly (x : Value H)
  /-- The function of `S`. -/
  | distributor
  /-- The function of `S p`. -/
  | distributing (p : Value H)
  /-- The function of `S p f`. -/
  | distribute (p f : Value H)
  deriving Inhabited

/-- A host: what it means to call one of its values. -/
structure Host (H σ ε : Type) where
  /-- Call a value of the host with one argument. -/
  call : H → Value H → Effect σ ε (Value H)

namespace Host

/-- Call a function with one argument, granted a number of nested steps. -/
def apply {H σ ε : Type} (host : Host H σ ε) : Nat → Value H → Value H → Effect σ ε (Value H)
  | 0, _, _ => throw .unfinished
  | _ + 1, .identity, x => return x
  | _ + 1, .constant, x => return .constantly x
  | _ + 1, .constantly x, _ => return x
  | _ + 1, .distributor, p => return .distributing p
  | _ + 1, .distributing p, f => return .distribute p f
  | steps + 1, .distribute p f, x => do
      let fn ← host.apply steps p x
      let arg ← host.apply steps f x
      host.apply steps fn arg
  | _ + 1, .host value, x => host.call value x

/-- Call a function with several arguments in turn. -/
def applyAll {H σ ε : Type} (host : Host H σ ε) (steps : Nat) (fn : Value H)
    (args : List (Value H)) : Effect σ ε (Value H) :=
  args.foldlM (host.apply steps) fn

/-- The value of a term: function part, argument part, call. -/
def evaluate {H σ ε : Type} (host : Host H σ ε) (steps : Nat) : Term → Effect σ ε (Value H)
  | .S => return .distributor
  | .K => return .constant
  | .I => return .identity
  | .app fn arg => do
      let fn ← host.evaluate steps fn
      let arg ← host.evaluate steps arg
      host.apply steps fn arg

end Host
end Combinatory
