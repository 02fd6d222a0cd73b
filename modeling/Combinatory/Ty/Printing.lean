import Combinatory.Ty.Scheme
import Combinatory.Ty.Unification

/-!
# How types are written

Arrows associate to the right, so only an arrow in the domain of another one is put in parentheses.
-/

namespace Combinatory
namespace Ty

/-- The arrow between a domain and a codomain that are written already. -/
def joinArrow (parenthesized : Bool) (dom cod : String) : String :=
  (if parenthesized then "(" ++ dom ++ ")" else dom) ++ " -> " ++ cod

/-- The type as it is written. -/
def pretty : Ty → String
  | var name => name
  | arrow dom cod => joinArrow dom.isArrow dom.pretty cod.pretty

end Ty

namespace UnificationFailure

/-- What is reported about an equation that cannot be solved. -/
def message : UnificationFailure → String
  | infinite name type => "Cannot construct infinite type " ++ name ++ " = " ++ type.pretty
  | cyclic => "Cannot resolve a cyclic substitution"

/-- The failure with its variables numbered in order of first appearance. -/
def renumber : UnificationFailure → UnificationFailure
  | infinite name type =>
      match (Ty.arrow (.var name) type).renumber with
      | .arrow (.var name) type => infinite name type
      | _ => infinite name type
  | cyclic => cyclic

end UnificationFailure
end Combinatory
