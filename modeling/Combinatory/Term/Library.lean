import Combinatory.Datum
import Combinatory.Term.Typing

/-!
# The library of combinators

Named terms built from `S`, `K` and `I`, each with the type it is documented to have. The first ones
rearrange arguments. The booleans are selectors: `truth` takes the first of two values and
`falsehood` the second. The boolean operators use their first operand at a payload type that is
itself a type of selectors, because a simple type cannot ask for a selector that works at all
payload types.
-/

namespace Combinatory
namespace Library

open Term (apps app S K I)
open Ty (arrow arrows)

/-- `comp f g x` is `f (g x)`. -/
def comp : Term := apps S [app K S, K]

/-- `flip p x y` is `p y x`. -/
def flip : Term := apps S [apps S [app K comp, S], app K K]

/-- `rev x f` is `f x`. -/
def rev : Term := app flip I

/-- `rotr x p y` is `p y x`. -/
def rotr : Term := app flip flip

/-- `rotv x y p` is `p x y`. -/
def rotv : Term := apps comp [flip, rev]

/-- `join p x` is `p x x`. -/
def join : Term := apps flip [S, I]

/-- The selector of the first value. -/
def truth : Term := K

/-- The selector of the second value. -/
def falsehood : Term := app K I

/-- The selector for a truth value. -/
def selector (flag : Bool) : Term := if flag then truth else falsehood

/-- The selector that chooses the other value. -/
def negation : Term := flip

/-- `conjunction x y` is `x y falsehood`. -/
def conjunction : Term := apps comp [apps comp [app rev falsehood], I]

/-- `disjunction x y` is `x truth y`. -/
def disjunction : Term := app rev truth

/-- `exclusion x y` is `x (negation y) y`. -/
def exclusion : Term := apps comp [join, apps flip [comp, negation]]

/-- A named term and the type it is documented to have. -/
structure Entry where
  /-- The name by which the term is looked up. -/
  name : String
  /-- The term. -/
  term : Term
  /-- An instance of the principal type of the term. -/
  type : Ty

/-- The named terms in their order of presentation. -/
def entries : List Entry :=
  let a := Ty.var "a"
  let b := Ty.var "b"
  let c := Ty.var "c"
  let binary := arrows [.bool (.bool a), .bool a] (.bool a)
  [ ⟨"comp", comp, arrows [arrow b c, arrow a b, a] c⟩,
    ⟨"flip", flip, arrows [arrows [a, b] c, b, a] c⟩,
    ⟨"rev", rev, arrows [a, arrow a b] b⟩,
    ⟨"rotr", rotr, arrows [a, arrows [c, a] b, c] b⟩,
    ⟨"rotv", rotv, arrows [a, b, arrows [a, b] c] c⟩,
    ⟨"join", join, arrows [arrows [a, a] b, a] b⟩,
    ⟨"true", truth, .bool a⟩,
    ⟨"false", falsehood, .bool a⟩,
    ⟨"not", negation, arrow (.bool a) (.bool a)⟩,
    ⟨"and", conjunction, binary⟩,
    ⟨"or", disjunction, binary⟩,
    ⟨"xor", exclusion, binary⟩ ]

/-- The names of the library in their order of presentation. -/
def names : List String :=
  entries.map Entry.name

/-- Why a name is not found. -/
inductive LookupFailure where
  /-- Nothing is called so. -/
  | unknown (name : Datum)
  /-- This cannot be the name of anything. -/
  | notAKey (reason : Datum.Unkeyable)
  deriving Inhabited

/-- What is reported when a name is not found among the given ones. -/
def LookupFailure.message (kind : String) (known : List String) : LookupFailure → String
  | unknown name =>
      "Unknown " ++ kind ++ " " ++ name.display ++ ", try one of: " ++ ", ".intercalate known
  | notAKey reason => reason.message

/-- What has the given name among named things. -/
def find? {α : Type} (nameOf : α → String) (things : List α) (name : Datum) :
    Except LookupFailure α :=
  match name.unkeyable? with
  | some reason => .error (.notAKey reason)
  | none =>
      match things.find? fun thing => Shape.text (nameOf thing) = name.shape with
      | some thing => .ok thing
      | none => .error (.unknown name)

/-- The term of a given name. -/
def lookup? (name : Datum) : Except LookupFailure Term := do
  return (← find? Entry.name entries name).term

/-- The term of an entry with its principal type, of which the documented one is an instance. -/
def Entry.typed? (entry : Entry) : Option TypedTerm := do
  let typed ← (TypedTerm.ofTerm? entry.term).toOption
  typed.annotate? entry.type

/-- The library with principal types. -/
def typedEntries : List (String × TypedTerm) :=
  entries.filterMap fun entry => entry.typed?.map fun typed => (entry.name, typed)

end Library
end Combinatory
