import Combinatory.Lambda.Compile

/-!
# Sources of terms

A source tells how a term is put together: from combinators, by application with or without a check
for a type, from the library, by compiling a function, or from parts that nobody has checked. The
parts of a source are built from left to right, and each is applied as soon as it is there.

All terms are built on one workbench, so what was registered or remembered while one of them was
built is there for the next one.
-/

namespace Combinatory

/-- How a term is put together. -/
inductive Source where
  /-- A combinator term. -/
  | combinator (term : Term)
  /-- A term applied to several others in turn. -/
  | apply (first : Source) (rest : List Source)
  /-- The term of the library that has the given name. -/
  | library (name : Datum)
  /-- The term that a function is compiled to. -/
  | compile (function : Lambda.Expr)
  /-- The application, or where it has no type the first term under `K`, applied to the second. -/
  | applyOrKeep (fn arg : Source)
  /-- One term applied to the other a given number of times. -/
  | iterate (count : Nat) (fn arg : Source)
  /-- One term applied to a given number of copies of the other. -/
  | spine (count : Nat) (fn arg : Source)
  /-- The application of one term to another, which need not have a type. -/
  | unchecked (fn arg : Source)
  /-- A new atom of any name. -/
  | atom (name : String)
  /-- Two terms under any head, as a new object. -/
  | node (head : String) (lhs rhs : Source)
  /-- Plain data, which are no term. -/
  | data (value : Datum)
  deriving Inhabited

namespace Source

open Lambda (Task Work consult)
open RawTerm (Object)

mutual

/-- Put a term together, where functions are compiled by `perform`. -/
def build (perform : Task → Work Lambda.Object) : Source → Work Object
  | combinator term => consult (Registry.build term)
  | apply first rest => do
      let first ← first.build perform
      applyTo perform first rest
  | library name =>
      match Library.lookup? name with
      | .ok term => consult (Registry.registered term)
      | .error reason => Effect.raise (.notInLibrary reason)
  | compile function => do
      let compiled ← Lambda.compile perform (← perform (.evaluate [] function))
      consult (Registry.registered compiled.term)
  | applyOrKeep fn arg => do
      let fn ← fn.build perform
      let arg ← arg.build perform
      consult (Registry.applyOrKeep fn.term arg.term)
  | iterate count fn arg => do
      let fn ← fn.build perform
      let arg ← arg.build perform
      consult (Registry.iterate count fn arg)
  | spine count fn arg => do
      let fn ← fn.build perform
      let arg ← arg.build perform
      consult (Registry.spine count fn arg)
  | unchecked fn arg => do
      let fn ← fn.build perform
      let arg ← arg.build perform
      consult (Registry.applyUnchecked fn.term arg.term)
  | atom name => consult (Registry.newObject (.atom name))
  | node head lhs rhs => do
      let lhs ← lhs.build perform
      let rhs ← rhs.build perform
      consult (Registry.newObject (.node head lhs.term rhs.term))
  | data value => consult (Registry.newObject (.alien value))

/-- Apply a term to others in turn, each built just before it is needed. -/
def applyTo (perform : Task → Work Lambda.Object) (fn : Object) : List Source → Work Object
  | [] => return fn
  | arg :: rest => do
      let arg ← arg.build perform
      let application ← consult (Registry.apply fn.term arg.term)
      applyTo perform application rest

end

/-- The combinator term that a source stands for, whether or not that has a type. -/
def combinatorTerm (perform : Task → Work Lambda.Object) (source : Source) : Work Term := do
  let object ← source.build perform
  consult (Registry.combinatorTerm object.term)

end Source
end Combinatory
