import Combinatory.Ty.Name

/-!
# Types up to the names of their variables

The variables of a principal type are placeholders. `canonicalize` gives them the canonical names in
order of first appearance, so that types which differ by names only become equal; `instantiate`
draws new names for them from a supply, which never draws a name twice.
-/

namespace Combinatory
namespace Ty

/-- Rename the variables of a type by their place in the order of first appearance. -/
def relabel (label : Nat → String) (type : Ty) : Ty :=
  let names := type.vars
  type.bind fun name => var (label (names.idxOf name))

/-- The type with canonical names. -/
def canonicalize (type : Ty) : Ty :=
  type.relabel canonicalName

/-- The type with drawn names, numbered from zero. -/
def renumber (type : Ty) : Ty :=
  type.relabel drawnName

end Ty

/-- A supply of type variables that have not been used. -/
structure Supply where
  /-- The number of the next variable. -/
  next : Nat
  deriving DecidableEq, Inhabited, Repr

namespace Supply

/-- The supply from which nothing has been drawn. -/
def start : Supply := ⟨0⟩

/-- Draw a variable. -/
def fresh : StateM Supply Ty := do
  let supply ← get
  set (⟨supply.next + 1⟩ : Supply)
  return .var (Ty.drawnName supply.next)

/-- Replace every variable of a type by a drawn one, in order of first appearance. -/
def instantiate (type : Ty) : StateM Supply Ty := do
  let supply ← get
  set (⟨supply.next + type.vars.length⟩ : Supply)
  return type.relabel fun index => Ty.drawnName (supply.next + index)

/-- The number that a drawn name carries. -/
def numberOf? (name : String) : Option Nat :=
  match name.toList with
  | '_' :: digits => (String.ofList digits).toNat?
  | _ => none

/-- A supply that draws no variable of the given type. -/
def beyond (type : Ty) : Supply :=
  ⟨(type.vars.filterMap numberOf?).foldl (fun next number => max next (number + 1)) 0⟩

end Supply
end Combinatory
