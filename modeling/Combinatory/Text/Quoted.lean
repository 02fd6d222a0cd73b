import Combinatory.Text.Printable

/-!
# Quoted text

A text is shown between quotation marks, on one line, in such a way that it can be read back. The
mark is the apostrophe unless the text holds apostrophes and no double quotation mark. Inside, the
mark in use and the backslash are escaped, and a character without a visible form is written by its
code.
-/

namespace Combinatory
namespace Text

/-- The quotation mark that surrounds a text. -/
def quotationMark (text : List Char) : Char :=
  if '\'' ∈ text ∧ '"' ∉ text then '"' else '\''

/-- The lower-case hexadecimal digits of a number, with zeros in front up to the given width. -/
def hexadecimal (width number : Nat) : List Char :=
  let digits := Nat.toDigits 16 number
  List.replicate (width - digits.length) '0' ++ digits

/-- How a character is written between two quotation marks of the given kind. -/
def escaped (mark c : Char) : List Char :=
  if c = mark ∨ c = '\\' then ['\\', c]
  else if c = '\n' then ['\\', 'n']
  else if c = '\r' then ['\\', 'r']
  else if c = '\t' then ['\\', 't']
  else if isPrintable c then [c]
  else if c.toNat < 0x100 then '\\' :: 'x' :: hexadecimal 2 c.toNat
  else if c.toNat < 0x10000 then '\\' :: 'u' :: hexadecimal 4 c.toNat
  else '\\' :: 'U' :: hexadecimal 8 c.toNat

/-- The text between quotation marks. -/
def quoted (text : String) : String :=
  let mark := quotationMark text.toList
  String.ofList (mark :: text.toList.flatMap (escaped mark) ++ [mark])

end Text
end Combinatory
