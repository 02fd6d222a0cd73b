import Combinatory.Ty.Basic

/-!
# Names of type variables

A name that may be written in a type is a lower-case letter followed by lower-case letters and
digits; one line feed at the end is let pass. Drawn names begin with an underscore, so no written
name is ever drawn. Canonical names run through the alphabet and then number it.
-/

namespace Combinatory
namespace Ty

/-- Is the character one of the lower-case letters `a` to `z`? -/
def isNameStart (c : Char) : Bool :=
  'a' ≤ c && c ≤ 'z'

/-- Is the character a lower-case letter or a digit, in the ASCII range? -/
def isNamePart (c : Char) : Bool :=
  isNameStart c || ('0' ≤ c && c ≤ '9')

/-- Is this the rest of a name that may be written, after its first letter? -/
def isNameRest : List Char → Bool
  | [] => true
  | ['\n'] => true
  | c :: rest => isNamePart c && isNameRest rest

/-- May the name be written in a type? -/
def isWritable (name : String) : Bool :=
  match name.toList with
  | [] => false
  | c :: rest => isNameStart c && isNameRest rest

/-- The drawn name with a given number. -/
def drawnName (number : Nat) : String :=
  "_" ++ toString number

/-- The canonical name with a given index: `a` to `z`, then `a1` to `z1`, and so on. -/
def canonicalName (index : Nat) : String :=
  let letter := String.singleton (Char.ofNat ('a'.toNat + index % 26))
  if index < 26 then letter else letter ++ toString (index / 26)

end Ty
end Combinatory
