import Combinatory.Ty.Basic

/-!
# Substitutions

A substitution binds finitely many type variables to types. It is read in two ways. `rename`
replaces variables once and simultaneously; `resolve` chases bindings, so that a bound type may
mention variables that are bound themselves. Chasing ends at a variable that no binding leads on
from. In a substitution without cycles a chain of bindings never uses one twice, so its length is at
most their number, which bounds the chase.
-/

namespace Combinatory

/-- A finite map from type variables to types. -/
structure Subst where
  /-- The bindings, each variable at most once, the newest first. -/
  bindings : List (String × Ty)
  deriving DecidableEq, Inhabited, Repr

namespace Subst

/-- The substitution without bindings. -/
def empty : Subst := ⟨[]⟩

/-- The type that a variable is bound to. -/
def get? (subst : Subst) (name : String) : Option Ty :=
  subst.bindings.lookup name

/-- Bind a variable, in place of any earlier binding of it. -/
def insert (subst : Subst) (name : String) (type : Ty) : Subst :=
  ⟨(name, type) :: subst.bindings.filter fun binding => binding.1 != name⟩

@[simp]
theorem get?_empty (name : String) : empty.get? name = none := rfl

/-- A new binding hides earlier ones of its variable and no others. -/
theorem get?_insert (subst : Subst) (name other : String) (type : Ty) :
    (subst.insert name type).get? other = if other = name then some type else subst.get? other := by
  by_cases same : other = name
  · simp [insert, get?, same]
  · have other_ne : (other == name) = false := by simp [same]
    have lookup_filter (bindings : List (String × Ty)) :
        (bindings.filter fun binding => binding.1 != name).lookup other =
          bindings.lookup other := by
      induction bindings with
      | nil => rfl
      | cons binding bindings ih =>
          obtain ⟨key, value⟩ := binding
          by_cases hidden : key = name
          · simp [hidden, ih, List.lookup_cons, other_ne]
          · simp [hidden, ih, List.lookup_cons]
    simp [insert, get?, same, lookup_filter, List.lookup_cons, other_ne]

/-- After a variable has been bound, what is found is its type or was found before. -/
theorem get?_insert_eq_some {subst : Subst} {name other : String} {type value : Ty}
    (stored : (subst.insert name type).get? other = some value) :
    (other = name ∧ type = value) ∨ (other ≠ name ∧ subst.get? other = some value) := by
  rw [get?_insert] at stored
  split at stored
  · next same => exact .inl ⟨same, Option.some.inj stored⟩
  · next differ => exact .inr ⟨differ, stored⟩

/-- The substitution with the given bindings, of which later ones win. -/
def ofList (bindings : List (String × Ty)) : Subst :=
  bindings.foldl (fun subst (name, type) => subst.insert name type) empty

/-- The number of bindings. -/
def size (subst : Subst) : Nat :=
  subst.bindings.length

/-- The number of variables and arrows in all bound types. -/
def nodes (subst : Subst) : Nat :=
  subst.bindings.foldr (fun binding nodes => binding.2.size + nodes) 0

/-- Replace variables simultaneously, without chasing bindings. -/
def rename (subst : Subst) (type : Ty) : Ty :=
  type.bind fun name => (subst.get? name).getD (.var name)

/-- Follow the bindings of a variable for at most the given number of steps. -/
def walkFor (subst : Subst) : Nat → Ty → Ty
  | steps + 1, .var name =>
      match subst.get? name with
      | some type => subst.walkFor steps type
      | none => .var name
  | _, type => type

/-- Follow bindings from a variable to a function type or an unbound variable. -/
def walk (subst : Subst) (type : Ty) : Ty :=
  subst.walkFor subst.size type

/-- What a variable stands for, bindings being chased to at most the given depth. -/
def resolveVar (subst : Subst) : Nat → String → Ty
  | 0, name => .var name
  | depth + 1, name =>
      match subst.get? name with
      | some type => type.bind (subst.resolveVar depth)
      | none => .var name

/-- Replace variables until none that is left is bound. -/
def resolve (subst : Subst) (type : Ty) : Ty :=
  type.bind (subst.resolveVar subst.size)

end Subst
end Combinatory
