import Combinatory.Term.Typing

/-!
# Signatures of functions

The parameters of a function are taken by position or by keyword only. A parameter may carry a
default value, to which it is bound where no argument is given. Positional arguments left over may
be collected under one name and keyword arguments under another one.

Where a function is written, default values are closed terms. The parameters of a function that has
been made may carry any objects.
-/

namespace Combinatory
namespace Lambda

/-- A named parameter. -/
structure Parameter (α : Type) where
  /-- The name under which the body knows the argument. -/
  name : String
  /-- The default value, without which no argument may be left out. -/
  default? : Option α
  deriving DecidableEq, Inhabited, Repr

namespace Parameter

variable {α β : Type}

/-- May the argument be left out? -/
def hasDefault (parameter : Parameter α) : Bool :=
  parameter.default?.isSome

/-- The parameter with its default value replaced. -/
def map (change : α → β) (parameter : Parameter α) : Parameter β :=
  { name := parameter.name, default? := parameter.default?.map change }

@[simp]
theorem name_map (change : α → β) (parameter : Parameter α) :
    (parameter.map change).name = parameter.name := rfl

@[simp]
theorem hasDefault_map (change : α → β) (parameter : Parameter α) :
    (parameter.map change).hasDefault = parameter.hasDefault := by
  simp [map, hasDefault]

end Parameter

/-- The parameters of a function. -/
structure Signature (α : Type := TypedTerm) where
  /-- The parameters taken by position. -/
  positional : List (Parameter α)
  /-- The name for the positional arguments left over. -/
  rest? : Option String
  /-- The parameters taken by keyword only. -/
  keywordOnly : List (Parameter α)
  /-- The name for the keyword arguments left over. -/
  keywords? : Option String
  deriving DecidableEq, Inhabited, Repr

namespace Signature

variable {α β : Type}

/-- The signature without parameters. -/
def empty : Signature α :=
  { positional := [], rest? := none, keywordOnly := [], keywords? := none }

/--
Read parameters as they are written: `x`, `x=` with the default value, `*xs` and `**kw` for
arguments left over, `*` before the parameters taken by keyword only, and `/` after those taken by
position only, which changes nothing where no argument is given by keyword.
-/
def ofWritten (params : List String) (default : TypedTerm := .I) : Signature :=
  go params false empty
where
  /-- Read the remaining parameters, which may be taken by keyword only. -/
  go : List String → Bool → Signature → Signature
    | [], _, signature => signature
    | param :: params, byKeyword, signature =>
        match param.toList with
        | ['/'] => go params byKeyword signature
        | ['*'] => go params true signature
        | '*' :: '*' :: name =>
            go params byKeyword { signature with keywords? := some (String.ofList name) }
        | '*' :: name => go params true { signature with rest? := some (String.ofList name) }
        | chars =>
            let parameter : Parameter TypedTerm :=
              { name := String.ofList (chars.filter (· != '='))
                default? := if '=' ∈ chars then some default else none }
            if byKeyword then
              go params byKeyword
                { signature with keywordOnly := signature.keywordOnly ++ [parameter] }
            else
              go params byKeyword
                { signature with positional := signature.positional ++ [parameter] }

/-- The signature with its default values replaced. -/
def map (change : α → β) (signature : Signature α) : Signature β :=
  { positional := signature.positional.map (Parameter.map change)
    rest? := signature.rest?
    keywordOnly := signature.keywordOnly.map (Parameter.map change)
    keywords? := signature.keywords? }

@[simp]
theorem map_map {γ : Type} (later : β → γ) (change : α → β) (signature : Signature α) :
    (signature.map change).map later = signature.map (later ∘ change) := by
  simp [map, Function.comp_def, Parameter.map]

/-- Can a function of this signature be compiled? Default values are let pass on parameters taken by
keyword only. -/
def isCompilable (signature : Signature α) : Bool :=
  signature.rest?.isNone && signature.keywords?.isNone
    && signature.positional.all fun parameter => !parameter.hasDefault

@[simp]
theorem isCompilable_map (change : α → β) (signature : Signature α) :
    (signature.map change).isCompilable = signature.isCompilable := by
  simp [map, isCompilable, Function.comp_def]

/-- Bind parameters to arguments in turn, and to their default values where no arguments are left.
Give the arguments left over. -/
def bindParameters : List (Parameter α) → List α → Option (List (String × α) × List α)
  | [], args => some ([], args)
  | parameter :: parameters, arg :: args => do
      let (bound, left) ← bindParameters parameters args
      return ((parameter.name, arg) :: bound, left)
  | parameter :: parameters, [] => do
      let value ← parameter.default?
      let (bound, left) ← bindParameters parameters []
      return ((parameter.name, value) :: bound, left)

/-- Bind the name for the positional arguments left over; none if there are some and no name. -/
def bindLeft (tuple : List α → α) : Option String → List α → Option (List (String × α))
  | some name, left => some [(name, tuple left)]
  | none, [] => some []
  | none, _ :: _ => none

/-- Bind all parameters in a call with positional arguments only; none if they do not fit. No
arguments are there for the parameters taken by keyword only. -/
def bind? (signature : Signature α) (tuple : List α → α) (noKeywords : α) (args : List α) :
    Option (List (String × α)) := do
  let (positional, left) ← bindParameters signature.positional args
  let rest ← bindLeft tuple signature.rest? left
  let (keywordOnly, _) ← bindParameters signature.keywordOnly []
  let keywords := signature.keywords?.toList.map fun name => (name, noKeywords)
  return positional ++ rest ++ keywordOnly ++ keywords

end Signature
end Lambda
end Combinatory
