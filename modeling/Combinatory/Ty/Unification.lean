import Combinatory.Ty.Subst

/-!
# Unification

To solve an equation between two types is to extend a substitution so that both sides resolve to the
same type. Where a side is an unbound variable it is bound to the other side, the left one first;
two function types are solved domains first, then codomains. A variable that would have to contain
itself makes the equation unsolvable, and nothing else does.

Every step down both sides follows one path of arrows through the bound types. Without cycles such a
path is shorter than the number of nodes of all types involved, counted once for every variable that
may become bound on the way; this bounds the depth of the search.
-/

namespace Combinatory

/-- Why an equation between types is not solved. -/
inductive UnificationFailure where
  /-- The variable would have to be equal to a larger type that contains it. -/
  | infinite (name : String) (type : Ty)
  /-- The search went deeper than a substitution without cycles allows. -/
  | cyclic
  deriving DecidableEq, Inhabited, Repr

namespace Subst

/-- Bind an unbound variable to a type that does not contain it once resolved. -/
def bindVar (subst : Subst) (name : String) (type : Ty) : Except UnificationFailure Subst :=
  let resolved := subst.resolve type
  if resolved.mentions name then .error (.infinite name resolved)
  else .ok (subst.insert name type)

/-- Solve an equation, going down at most the given number of levels. -/
def unifyWithin : Nat → Subst → Ty → Ty → Except UnificationFailure Subst
  | 0, _, _, _ => .error .cyclic
  | levels + 1, subst, left, right =>
      let left := subst.walk left
      let right := subst.walk right
      if left = right then .ok subst
      else
        match left, right with
        | .var name, type => subst.bindVar name type
        | type, .var name => subst.bindVar name type
        | .arrow leftDom leftCod, .arrow rightDom rightCod =>
            match unifyWithin levels subst leftDom rightDom with
            | .ok extended => unifyWithin levels extended leftCod rightCod
            | .error failure => .error failure

/-- A depth that no search from a substitution without cycles exceeds. -/
def searchDepth (subst : Subst) (left right : Ty) : Nat :=
  let nodes := subst.nodes + left.size + right.size + 1
  nodes * nodes

/-- Extend a substitution so that both types resolve to the same type. -/
def unify (subst : Subst) (left right : Ty) : Except UnificationFailure Subst :=
  unifyWithin (subst.searchDepth left right) subst left right

end Subst
end Combinatory
