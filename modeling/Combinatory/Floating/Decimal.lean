import Combinatory.Floating.Basic

/-!
# Decimal notation of floating-point numbers

A number is written with the fewest decimal digits that are read as the same number. Of two such
decimals the nearer one is written, and of two that are equally near the even one. Seventeen digits
are enough for every number.

Numbers of moderate size are written with a decimal point in its place, others as one digit before
the point and a power of ten.
-/

namespace Combinatory
namespace Floating

/-- The exponent of the least power of ten that is greater than a quotient that is not zero. -/
def magnitude (num den : Nat) : Int :=
  let estimate : Int := (decimalLength num : Int) - decimalLength den
  let (num, den) := rescale 10 num den estimate
  if num < den then estimate else estimate + 1

/-- The two whole numbers around a quotient, the nearer one first. -/
def neighbours (num den : Nat) : List Nat :=
  let nearest := roundQuotient num den
  let whole := num / den
  if nearest = whole then [whole, whole + 1] else [whole + 1, whole]

/-- A decimal with the given power of ten that is read as the number of the given size. -/
def readBack? (significand : Nat) (exponent power : Int) : Option Nat :=
  let (num, den) := toQuotient significand exponent
  let (num, den) := rescale 10 num den power
  (neighbours num den).find? fun digits =>
    ofDecimal false digits power = .finite false significand exponent

/-- The shortest decimal that is read as a number that is not zero: its digits as a whole number,
and the power of ten. -/
def shortest (significand : Nat) (exponent : Int) : Nat × Int :=
  let (num, den) := toQuotient significand exponent
  let found? := (List.range 17).findSome? fun count =>
    let power := magnitude num den - (count + 1 : Nat)
    (readBack? significand exponent power).map fun digits => (digits, power)
  found?.getD (num * Nat.pow 5 (-exponent).toNat, min exponent 0)

/-- What is left of digits when the zeros at the end are taken away. -/
def withoutFinalZeros (digits : List Char) : List Char :=
  (digits.reverse.dropWhile (· == '0')).reverse

/-- Any number of zeros. -/
def zeros (count : Int) : List Char :=
  List.replicate count.toNat '0'

/-- Digits with a decimal point after the given number of them. -/
def positional (digits : List Char) (point : Int) : List Char :=
  if point ≤ 0 then '0' :: '.' :: zeros (-point) ++ digits
  else
    let fraction := digits.drop point.toNat
    digits.take point.toNat ++ zeros (point - digits.length)
      ++ '.' :: (if fraction.isEmpty then ['0'] else fraction)

/-- Digits with a decimal point after the first one, if more follow, and a power of ten. -/
def scientific (digits : List Char) (power : Int) : List Char :=
  let sign := if power < 0 then '-' else '+'
  let powerDigits := Nat.toDigits 10 power.natAbs
  let fraction := digits.drop 1
  digits.take 1 ++ (if fraction.isEmpty then [] else '.' :: fraction)
    ++ 'e' :: sign :: zeros (2 - powerDigits.length) ++ powerDigits

/-- The size of a finite number as it is written. The decimal point is in its place from
`0.0001` up to sixteen digits before it. -/
def writtenSize (significand : Nat) (exponent : Int) : List Char :=
  if significand = 0 then ['0', '.', '0']
  else
    let (number, power) := shortest significand exponent
    let digits := Nat.toDigits 10 number
    let point := digits.length + power
    let digits := withoutFinalZeros digits
    if -4 < point ∧ point ≤ 16 then positional digits point
    else scientific digits (point - 1)

/-- A sign in front of what is written without one. -/
def signed (negative : Bool) (size : List Char) : String :=
  String.ofList (if negative then '-' :: size else size)

/-- The number as it is written. -/
def written : Floating → String
  | finite negative significand exponent => signed negative (writtenSize significand exponent)
  | infinite negative => signed negative ['i', 'n', 'f']

end Floating
end Combinatory
