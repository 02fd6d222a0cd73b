/-!
# Floating-point numbers

A finite floating-point number is a whole number of at most 53 binary digits times a power of two,
with a sign; what is too large for that is infinite. A quotient is rounded to the nearest number,
and a tie goes to the one with the even significand. The exponent is the least at which the whole
part has no more than 53 digits, so equal numbers of one sign are written alike.
-/

namespace Combinatory

/-- A floating-point number. -/
inductive Floating where
  /-- The significand times a power of two. -/
  | finite (negative : Bool) (significand : Nat) (exponent : Int)
  /-- A number beyond all finite ones. -/
  | infinite (negative : Bool)
  deriving DecidableEq, Hashable, Inhabited, Repr

namespace Floating

/-- The number of binary digits of a significand. -/
def precision : Nat := 53

/-- The least whole number with too many digits for a significand. -/
def significandBound : Nat := Nat.pow 2 precision

/-- The least exponent. -/
def leastExponent : Int := -1074

/-- The greatest exponent. -/
def greatestExponent : Int := 971

/-- The zero of a sign. -/
def zero (negative : Bool) : Floating := .finite negative 0 leastExponent

/-- The whole number nearest to a quotient; a tie goes to the even one. -/
def roundQuotient (num den : Nat) : Nat :=
  let whole := num / den
  let rest := 2 * (num % den)
  if rest < den then whole
  else if den < rest then whole + 1
  else whole + whole % 2

/-- A quotient divided by a power of the base, again as a quotient. -/
def rescale (base num den : Nat) (power : Int) : Nat × Nat :=
  (num * Nat.pow base (-power).toNat, den * Nat.pow base power.toNat)

/-- The exponent for a quotient that is not zero. -/
def exponentOf (num den : Nat) : Int :=
  let low := max leastExponent ((num.log2 : Int) - den.log2 - precision)
  let (num, den) := rescale 2 num den low
  if num / den < significandBound then low else low + 1

/-- The number nearest to a quotient, with a sign. -/
def ofQuotient (negative : Bool) (num den : Nat) : Floating :=
  if num = 0 then zero negative
  else
    let exponent := exponentOf num den
    let (num, den) := rescale 2 num den exponent
    let significand := roundQuotient num den
    let (significand, exponent) :=
      if significand = significandBound then (significandBound / 2, exponent + 1)
      else (significand, exponent)
    if greatestExponent < exponent then .infinite negative
    else .finite negative significand exponent

/-- The number of decimal digits of a whole number. -/
def decimalLength (number : Nat) : Nat :=
  (Nat.toDigits 10 number).length

/-- The number nearest to `digits * 10 ^ power`, with a sign. No finite number reaches `10 ^ 310`,
and what is below `10 ^ (-330)` is nearest to zero. -/
def ofDecimal (negative : Bool) (digits : Nat) (power : Int) : Floating :=
  let size := decimalLength digits + power
  if digits = 0 ∨ size < -330 then zero negative
  else if 310 < size then .infinite negative
  else
    let (num, den) := rescale 10 digits 1 (-power)
    ofQuotient negative num den

/-- The size of a finite number as a quotient. -/
def toQuotient (significand : Nat) (exponent : Int) : Nat × Nat :=
  rescale 2 significand 1 (-exponent)

/-- The integer that a number is, if it is one. -/
def toInt? : Floating → Option Int
  | finite negative significand exponent =>
      let (num, den) := toQuotient significand exponent
      if num % den = 0 then
        let size : Int := (num / den : Nat)
        some (if negative then -size else size)
      else none
  | infinite _ => none

end Floating
end Combinatory
