import Combinatory.Term.Typing

/-!
# Open expressions and abstraction

An open expression is put together from closed typed terms, variables and applications; it may also
hold foreign objects that have yet to be read as expressions. Only an application of closed terms is
checked for a type, because only such terms have one.

To abstract a variable from an expression is to find an expression without it that gives the old one
when applied to the variable. The rules go by the parts in which the variable occurs:

* the variable itself becomes `I`;
* `u v` becomes `S u' v'` if it occurs in both parts, `S (K u) v'` if only in `v`, and `S u' (K v)`
  if only in `u`;
* `u x` becomes `u` if `x` does not occur in `u`;
* an expression without the variable becomes `K` of it.

An application `u x` to a foreign object `u` that stands for no result counts as an expression
without the variable.
-/

namespace Combinatory

/-- A symbolic variable. Its serial number tells it apart from others of the same name. -/
structure Var where
  /-- The number of the variable. -/
  serial : Nat
  /-- The name by which it is written. -/
  name : String
  deriving DecidableEq, Inhabited, Repr

/-- An expression that may mention variables and hold foreign objects of type `α`. -/
inductive Open (α : Type) where
  /-- A closed term. -/
  | term (value : TypedTerm)
  /-- A variable. -/
  | var (value : Var)
  /-- An application, with a number that tells it apart from others that look the same. -/
  | app (serial : Nat) (fn arg : Open α)
  /-- An object that has not been read as an expression. -/
  | foreign (value : α)
  deriving Inhabited

namespace Open

/-- Is the expression the given variable? -/
def isVar {α : Type} (x : Var) : Open α → Bool
  | var y => y == x
  | _ => false

/-- The variables of an expression, each once, or a foreign object that is in the way. -/
def freeVars {α : Type} : Open α → Except α (List Var)
  | term _ => .ok []
  | var x => .ok [x]
  | app _ fn arg => do
      let fnVars ← fn.freeVars
      let argVars ← arg.freeVars
      return fnVars ++ argVars.filter (· ∉ fnVars)
  | foreign value => .error value

end Open

/-- What putting together expressions over foreign objects needs from its surroundings. -/
structure Assembly (m : Type → Type) (α : Type) where
  /-- Read a foreign object as an expression. -/
  read : α → m (Open α)
  /-- Does a foreign object stand for no result? -/
  isNothing : α → Bool
  /-- A number for a new application. -/
  nextSerial : m Nat
  /-- Apply one closed term to another, which is an error where the application has no type. -/
  apply : TypedTerm → TypedTerm → m (Open α)
  /-- Note that a variable has been abstracted: the variable, the old and the new expression. -/
  note : Var → Open α → Open α → m Unit

namespace Assembly

variable {m : Type → Type} [Monad m] {α : Type}

/-- Nothing but terms, variables and applications, where only a missing type is an error. -/
def closed : Assembly (Except (IllTyped Term)) Empty where
  read := fun value => nomatch value
  isNothing := fun value => nomatch value
  nextSerial := .ok 0
  apply := fun fn arg => return .term (← fn.app? arg)
  note := fun _ _ _ => .ok ()

/-- The object as an expression. -/
def convert (assembly : Assembly m α) : Open α → m (Open α)
  | .foreign value => assembly.read value
  | expr => return expr

/-- The application of one expression to another; that of closed terms is a term. -/
def join (assembly : Assembly m α) : Open α → Open α → m (Open α)
  | .term fn, .term arg => assembly.apply fn arg
  | fn, arg => return .app (← assembly.nextSerial) fn arg

/-- A result, unless it is a foreign object that stands for none. -/
def result? (assembly : Assembly m α) : Open α → Option (Open α)
  | .foreign value => if assembly.isNothing value then none else some (.foreign value)
  | expr => some expr

/-- The application of an object to others in turn, after all are read from left to right. -/
def app (assembly : Assembly m α) (first : Open α) (rest : List (Open α)) : m (Open α) := do
  let first ← assembly.convert first
  let rest ← rest.mapM assembly.convert
  rest.foldlM assembly.join first

/-- The abstraction of a variable from an expression in which it occurs; none if it does not. -/
def abstract? (assembly : Assembly m α) (x : Var) : Open α → m (Option (Open α))
  | .var y => return if y = x then some (.term .I) else none
  | .app _ fn arg => do
      let fnAbstraction ← assembly.abstract? x fn
      let argAbstraction ← assembly.abstract? x arg
      match fnAbstraction, argAbstraction with
      | none, none => return none
      | none, some argAbstraction =>
          if arg.isVar x then return assembly.result? fn
          else do
            let constantFn ← assembly.app (.term .K) [fn]
            return some (← assembly.app (.term .S) [constantFn, argAbstraction])
      | some fnAbstraction, none => do
          let constantArg ← assembly.app (.term .K) [arg]
          return some (← assembly.app (.term .S) [fnAbstraction, constantArg])
      | some fnAbstraction, some argAbstraction => do
          return some (← assembly.app (.term .S) [fnAbstraction, argAbstraction])
  | .term _ => return none
  | .foreign _ => return none

/-- The abstraction of a variable from an expression. -/
def abstract (assembly : Assembly m α) (x : Var) (body : Open α) : m (Open α) := do
  let abstraction ←
    match ← assembly.abstract? x body with
    | some abstraction => pure abstraction
    | none => assembly.app (.term .K) [body]
  assembly.note x body abstraction
  return abstraction

/-- The abstraction of several variables, the last one first. -/
def abstractAll (assembly : Assembly m α) (xs : List Var) (body : Open α) : m (Open α) :=
  xs.reverse.foldlM (fun body x => assembly.abstract x body) body

end Assembly
end Combinatory
