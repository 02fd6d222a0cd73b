/-!
# Combinator terms

A term is one of the atoms `S`, `K`, `I` or the application of one term to another. This module
holds the terms, how they are written and how large they are.
-/

namespace Combinatory

/-- A combinator term. -/
inductive Term where
  /-- The distributor: `S p f x` is `p x (f x)`. -/
  | S
  /-- The constant: `K x y` is `x`. -/
  | K
  /-- The identity: `I x` is `x`. -/
  | I
  /-- A term applied to a term. -/
  | app (fn arg : Term)
  deriving DecidableEq, Hashable, Inhabited, Repr

namespace Term

/-- A term applied to several others in turn. -/
def apps (fn : Term) (args : List Term) : Term :=
  args.foldl app fn

/-- The written form of an application. -/
def parenthesize (fn arg : String) : String :=
  "(" ++ fn ++ " " ++ arg ++ ")"

/-- The term as it is written, with every application in parentheses. -/
def render : Term → String
  | S => "S"
  | K => "K"
  | I => "I"
  | app fn arg => parenthesize fn.render arg.render

/-- The number of atoms of a term. -/
def size : Term → Nat
  | app fn arg => fn.size + arg.size
  | _ => 1

/-- The number of applications around the most deeply nested atom. -/
def depth : Term → Nat
  | app fn arg => 1 + max fn.depth arg.depth
  | _ => 0

end Term
end Combinatory
