import Combinatory.Floating.Decimal
import Combinatory.Text.Quoted

/-!
# Plain data

Values that carry no computation: single literals, and tuples, lists and records of them. They turn
up where a term or a type was expected, as operands of host programs, and as keys of memo tables.
This module says how they are written, when two of them are equal, and which can be keys.
-/

namespace Combinatory

/-- A single plain value. -/
inductive Literal where
  /-- The value that stands for no value. -/
  | nothing
  /-- A truth value. -/
  | bool (value : Bool)
  /-- An integer of any size. -/
  | int (value : Int)
  /-- A floating-point number. -/
  | float (value : Floating)
  /-- A text. -/
  | text (value : String)
  deriving DecidableEq, Hashable, Inhabited, Repr

namespace Literal

/-- The literal as it is written inside other data, texts between quotation marks. -/
def quoted : Literal → String
  | nothing => "None"
  | bool true => "True"
  | bool false => "False"
  | int value => toString value
  | float value => value.written
  | text value => Text.quoted value

/-- The literal as it is written on its own, a text standing for itself. -/
def display : Literal → String
  | text value => value
  | literal => literal.quoted

/-- The literal that stands for all those equal to it: a truth value equals the number 0 or 1, and a
floating-point number the integer that it is. -/
def representative : Literal → Literal
  | bool value => int (if value then 1 else 0)
  | float value =>
      match value.toInt? with
      | some value => int value
      | none => float value
  | literal => literal

/-- Does the literal count as true? Nothing, false, zero and the empty text do not. -/
def isTruthy (literal : Literal) : Bool :=
  match literal.representative with
  | nothing => false
  | int value => value != 0
  | text value => !value.isEmpty
  | _ => true

/-- Is there only one object for the literal, wherever it is written? So it is for nothing, the
truth values, small integers, and texts of one character below 256 or none. -/
def isShared : Literal → Bool
  | nothing => true
  | bool _ => true
  | int value => -5 ≤ value && value ≤ 256
  | float _ => false
  | text value =>
      match value.toList with
      | [] => true
      | [c] => c.toNat < 256
      | _ => false

/-- The whole number written by decimal digits, of which there is at least one. -/
def wholeOfDigits? (digits : List Char) : Option Nat :=
  if digits.isEmpty || !digits.all Char.isDigit then none
  else some (digits.foldl (fun value digit => value * 10 + (digit.toNat - '0'.toNat)) 0)

/-- The number written without a sign: an integer, or a floating-point number if there is a decimal
point or an exponent. -/
def ofUnsigned? (negative : Bool) (numeral : List Char) : Option Literal := do
  let (mantissa, exponentPart) := numeral.span fun c => c != 'e' && c != 'E'
  let (whole, fractionPart) := mantissa.span (· != '.')
  if exponentPart.isEmpty && fractionPart.isEmpty then
    let size : Int := ← (wholeOfDigits? whole).map Int.ofNat
    return int (if negative then -size else size)
  else
    let exponent : Int ←
      match exponentPart.drop 1 with
      | [] => if exponentPart.isEmpty then some 0 else none
      | '-' :: digits => (wholeOfDigits? digits).map fun size => -(size : Int)
      | '+' :: digits => (wholeOfDigits? digits).map Int.ofNat
      | digits => (wholeOfDigits? digits).map Int.ofNat
    let fraction := fractionPart.drop 1
    let digits ← wholeOfDigits? (whole ++ fraction)
    return float (Floating.ofDecimal negative digits (exponent - fraction.length))

/-- The number that a numeral denotes. -/
def ofNumeral? (numeral : String) : Option Literal :=
  match numeral.toList with
  | '-' :: unsigned => ofUnsigned? true unsigned
  | unsigned => ofUnsigned? false unsigned

end Literal

/-- Plain data. -/
inductive Datum where
  /-- A single literal. -/
  | literal (value : Literal)
  /-- Data in a fixed order, usable as a key if all of them are. -/
  | tuple (items : List Datum)
  /-- Data in an order that may change later, so never a key. -/
  | list (items : List Datum)
  /-- Data under names of which each occurs once. They may change later, so never a key. -/
  | record (fields : List (String × Datum))
  deriving Inhabited, Repr

namespace Datum

/-- The data written so that it can be read back. -/
def quoted : Datum → String
  | literal value => value.quoted
  | tuple [] => "()"
  | tuple [item] => "(" ++ item.quoted ++ ",)"
  | tuple (item :: items) => "(" ++ item.quoted ++ quotedRest items ++ ")"
  | list [] => "[]"
  | list (item :: items) => "[" ++ item.quoted ++ quotedRest items ++ "]"
  | record [] => "\x7b\x7d"
  | record (field :: fields) => "\x7b" ++ quotedField field ++ quotedFields fields ++ "\x7d"
where
  /-- The items after the first, each after a comma. -/
  quotedRest : List Datum → String
    | [] => ""
    | item :: items => ", " ++ item.quoted ++ quotedRest items
  /-- A name and what is under it. -/
  quotedField : String × Datum → String
    | (name, item) => Text.quoted name ++ ": " ++ item.quoted
  /-- The fields after the first, each after a comma. -/
  quotedFields : List (String × Datum) → String
    | [] => ""
    | field :: fields => ", " ++ quotedField field ++ quotedFields fields

/-- The data as it is written on its own. -/
def display : Datum → String
  | literal value => value.display
  | datum => datum.quoted

end Datum

/--
The shape of data: what is left when equal literals are identified and the fields of a record are
put in order. A tuple is the chain of its members. Data are equal if their shapes are the same.
-/
inductive Shape where
  /-- A literal, one for each class of equal literals. -/
  | leaf (value : Literal)
  /-- The empty tuple. -/
  | nil
  /-- A tuple by its first member and the tuple of the others. -/
  | cons (first rest : Shape)
  /-- A list by the tuple of its members. -/
  | list (members : Shape)
  /-- A record by the tuple of its fields, in the order of their names. -/
  | record (fields : Shape)
  deriving DecidableEq, Hashable, Inhabited, Repr

namespace Shape

/-- The tuple with the given members. -/
def ofList (members : List Shape) : Shape := members.foldr cons nil

/-- The shape of a text. -/
def text (value : String) : Shape := leaf (.text value)

end Shape

namespace Datum

/-- The shape of data. -/
def shape : Datum → Shape
  | literal value => .leaf value.representative
  | tuple items => membersShape items
  | list items => .list (membersShape items)
  | record fields =>
      let sorted := (fieldShapes fields).mergeSort fun first second => first.1 ≤ second.1
      .record (.ofList (sorted.map fun (name, item) => .cons (.text name) item))
where
  /-- The shape of the tuple of the given members. -/
  membersShape : List Datum → Shape
    | [] => .nil
    | item :: items => .cons item.shape (membersShape items)
  /-- A name and the shape of what is under it. -/
  fieldShape : String × Datum → String × Shape
    | (name, item) => (name, item.shape)
  /-- The names and the shapes of what is under them. -/
  fieldShapes : List (String × Datum) → List (String × Shape)
    | [] => []
    | field :: fields => fieldShape field :: fieldShapes fields

/-- Data of this kind may change later, so it cannot be used as a key or inside of one. -/
inductive Unkeyable where
  /-- A list. -/
  | list
  /-- A record. -/
  | record
  deriving DecidableEq, Inhabited, Repr

/-- What is reported when such data are used as a key. -/
def Unkeyable.message : Unkeyable → String
  | list => "unhashable type: 'list'"
  | record => "unhashable type: 'dict'"

/-- The first part of the data that cannot be used in a key. -/
def unkeyable? : Datum → Option Unkeyable
  | literal _ => none
  | tuple items => firstUnkeyable? items
  | list _ => some .list
  | record _ => some .record
where
  /-- The first part of any of the data that cannot be used in a key. -/
  firstUnkeyable? : List Datum → Option Unkeyable
    | [] => none
    | item :: items => item.unkeyable?.orElse fun _ => firstUnkeyable? items

/-- Are the data one object wherever they are made? Besides shared literals there is only one empty
tuple. -/
def areOneObject : Datum → Datum → Bool
  | literal left, literal right => left.isShared && left == right
  | tuple [], tuple [] => true
  | _, _ => false

end Datum
end Combinatory
