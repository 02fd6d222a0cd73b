import Combinatory.Ty.Subst

/-!
# Matching

One type is an instance of another, the pattern, when replacing the variables of the pattern gives
it. Its own variables stand for themselves, also where the pattern has a variable of that name.
-/

namespace Combinatory
namespace Subst

/-- Extend a substitution by bindings that rename the pattern to the type. -/
def matchType? : Subst → Ty → Ty → Option Subst
  | subst, .var name, type =>
      match subst.get? name with
      | none => some (subst.insert name type)
      | some bound => if bound = type then some subst else none
  | _, .arrow _ _, .var _ => none
  | subst, .arrow patternDom patternCod, .arrow dom cod =>
      match subst.matchType? patternDom dom with
      | some extended => extended.matchType? patternCod cod
      | none => none

end Subst

namespace Ty

/-- Is the type an instance of the general one? -/
def isInstance (specific general : Ty) : Bool :=
  (Subst.empty.matchType? general specific).isSome

end Ty
end Combinatory
