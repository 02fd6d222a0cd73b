import Combinatory.CommandLine.Command

/-!
# Arguments of the command line

The first argument names the command. Of the others, those at the end that hold an equality sign are
given by keyword, and all before them by position. Keywords are read from the last to the first, and
of several values for one keyword the last that is read counts.
-/

namespace Combinatory
namespace CommandLine

/-- Why arguments are refused. -/
inductive Refusal where
  /-- No command was given. -/
  | noCommand
  /-- There is no such command. -/
  | unknownCommand (name : String)
  /-- The command knows no such keyword. -/
  | unexpectedKeyword (command keyword : String)
  /-- A parameter was given by position and by keyword. -/
  | repeatedKeyword (command keyword : String)
  /-- The number of arguments does not fit. -/
  | wrongCount
  deriving Inhabited

/-- The names of the commands. -/
def commandNames : List String := ["show", "types", "table"]

/-- How the command line is used. -/
def usage : String :=
  "Usage: skicomb COMMAND [ARG ARG ... KEY=VAL KEY=VAL ...]\n\n" ++
  "show (name)\n" ++
  "    Print a library combinator as a fully parenthesized term.\n\n" ++
  "types ()\n" ++
  "    Print every library combinator with its principal type.\n\n" ++
  "table (op='and')\n" ++
  "    Print the truth table of a boolean operator.\n\n" ++
  "    Args:\n" ++
  "        op: one of 'not', 'and', 'or', 'xor'\n"

/-- The keyword and the value on both sides of the first equality sign. -/
def splitKeyword? (argument : String) : Option (String × String) :=
  match argument.toList.span (· != '=') with
  | (keyword, '=' :: value) => some (String.ofList keyword, String.ofList value)
  | _ => none

/-- The value of the one parameter of a command, if there is any. -/
def parameter? (command : String) (parameter? : Option String) (positional : List Datum)
    (keywords : List (String × Datum)) : Except Refusal (Option Datum) := do
  let mut value? : Option Datum := if parameter?.isSome then positional.head? else none
  for (keyword, value) in keywords do
    if parameter? ≠ some keyword then throw (.unexpectedKeyword command keyword)
    if value?.isSome then throw (.repeatedKeyword command keyword)
    value? := some value
  if positional.length > parameter?.toList.length then throw .wrongCount
  return value?

/-- The command of the given name with arguments by position and by keyword. -/
def command? (name : String) (positional : List Datum) (keywords : List (String × Datum)) :
    Except Refusal Command :=
  match name with
  | "show" => do
      match ← parameter? name (some "name") positional keywords with
      | some value => return .combinator value
      | none => throw .wrongCount
  | "types" => do
      let _ ← parameter? name none positional keywords
      return .types
  | "table" => do
      let value? ← parameter? name (some "op") positional keywords
      return .table (value?.getD (.literal (.text "and")))
  | _ => throw (.unknownCommand name)

/-- Keyword arguments in the order in which they are read. A later value takes the place of an
earlier one for the same keyword. -/
def mergeKeywords (keywords : List (String × String)) : List (String × String) :=
  keywords.foldl (fun merged (keyword, value) =>
    if merged.any (·.1 == keyword) then
      merged.map fun entry => if entry.1 == keyword then (keyword, value) else entry
    else merged ++ [(keyword, value)]) []

/-- The arguments given by position, and those given by keyword in the order in which they are
read. -/
def split (arguments : List String) : List String × List (String × String) :=
  let backwards := arguments.reverse
  let positional := backwards.dropWhile fun argument => (splitKeyword? argument).isSome
  let keywords := backwards.takeWhile fun argument => (splitKeyword? argument).isSome
  (positional.reverse, mergeKeywords (keywords.filterMap splitKeyword?))

/-- Read the arguments of the command line. -/
def read : List String → Except Refusal Command
  | [] => .error .noCommand
  | name :: arguments =>
      let text (value : String) : Datum := .literal (.text value)
      let (positional, keywords) := split arguments
      command? name (positional.map text)
        (keywords.map fun (keyword, value) => (keyword, text value))

/-- What is reported when arguments are refused; none where the refusal speaks for itself. -/
def Refusal.message : Refusal → Option String
  | noCommand => some usage
  | unknownCommand name =>
      some ("unknown command '" ++ name ++ "', try one of:\n  " ++ ", ".intercalate commandNames)
  | unexpectedKeyword command keyword =>
      some (command ++ "() got an unexpected keyword argument '" ++ keyword ++ "'")
  | repeatedKeyword command keyword =>
      some (command ++ "() got multiple values for argument '" ++ keyword ++ "'")
  | wrongCount => none

end CommandLine
end Combinatory
