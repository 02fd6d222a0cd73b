/-!
# Simple types

A simple type is a type variable or the type of functions between two simple types. This module
holds the types, the types the library names, the variables of a type in the order in which they
are met, and simultaneous replacement of variables.
-/

namespace Combinatory

/-- A simple type. -/
inductive Ty where
  /-- A type variable. Its name is all there is to it. -/
  | var (name : String)
  /-- The type of functions from `dom` to `cod`. -/
  | arrow (dom cod : Ty)
  deriving DecidableEq, Hashable, Inhabited, Repr

namespace Ty

/-- The type of functions that take arguments of the given types in turn. -/
def arrows (domains : List Ty) (result : Ty) : Ty :=
  domains.foldr arrow result

/-- The type of selectors between two values of one payload type. -/
def bool (payload : Ty) : Ty :=
  arrows [payload, payload] payload

/-- Is the type a function type? -/
def isArrow : Ty → Bool
  | var _ => false
  | arrow _ _ => true

/-- The number of variables and arrows of a type, counted with repetition. -/
def size : Ty → Nat
  | var _ => 1
  | arrow dom cod => dom.size + cod.size + 1

/-- Does the variable occur in the type? -/
def mentions (name : String) : Ty → Bool
  | var other => other == name
  | arrow dom cod => dom.mentions name || cod.mentions name

/-- The variables of a type, each once. -/
def freeVars : Ty → List String
  | var name => [name]
  | arrow dom cod => dom.freeVars ++ cod.freeVars.filter (· ∉ dom.freeVars)

/--
Visit pending types from the left, for at most the given number of steps, and list the variables
that have not been seen before.
-/
def scan : Nat → List Ty → List String → List String
  | 0, _, _ => []
  | _, [], _ => []
  | steps + 1, var name :: pending, seen =>
      if name ∈ seen then scan steps pending seen
      else name :: scan steps pending (name :: seen)
  | steps + 1, arrow dom cod :: pending, seen => scan steps (dom :: cod :: pending) seen

/-- The variables of a type in order of first appearance; one step visits one node. -/
def vars (type : Ty) : List String :=
  scan type.size [type] []

/-- Replace every variable at once. -/
def bind (replacement : String → Ty) : Ty → Ty
  | var name => replacement name
  | arrow dom cod => arrow (dom.bind replacement) (cod.bind replacement)

@[simp]
theorem bind_var (type : Ty) : type.bind var = type := by
  induction type with
  | var name => rfl
  | arrow dom cod dom_ih cod_ih => simp [bind, dom_ih, cod_ih]

/-- Replacing twice is replacing once by what was replaced in turn. -/
theorem bind_bind (first second : String → Ty) (type : Ty) :
    (type.bind first).bind second = type.bind fun name => (first name).bind second := by
  induction type with
  | var name => rfl
  | arrow dom cod dom_ih cod_ih => simp [bind, dom_ih, cod_ih]

/-- Only the variables that occur in a type matter to a replacement. -/
theorem bind_congr {first second : String → Ty} {type : Ty}
    (agree : ∀ name, type.mentions name = true → first name = second name) :
    type.bind first = type.bind second := by
  induction type with
  | var name => exact agree name (by simp [mentions])
  | arrow dom cod dom_ih cod_ih =>
      have dom_eq := dom_ih fun name occurs => agree name (by simp [mentions, occurs])
      have cod_eq := cod_ih fun name occurs => agree name (by simp [mentions, occurs])
      simp [bind, dom_eq, cod_eq]

/-- The listed variables are those that occur. -/
theorem mem_freeVars {name : String} {type : Ty} :
    name ∈ type.freeVars ↔ type.mentions name = true := by
  induction type with
  | var other =>
      simp only [freeVars, mentions, List.mem_singleton, beq_iff_eq]
      exact eq_comm
  | arrow dom cod dom_ih cod_ih =>
      by_cases occurs : dom.mentions name = true <;>
        simp [freeVars, mentions, dom_ih, cod_ih, occurs]

end Ty
end Combinatory
