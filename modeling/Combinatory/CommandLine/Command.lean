import Combinatory.CommandLine.TruthTable

/-!
# Commands

What can be asked about the library from the command line: the written form of a combinator, the
types of all of them, and the truth table of a boolean operator.
-/

namespace Combinatory

/-- A command. -/
inductive Command where
  /-- Print a combinator of the library. -/
  | combinator (name : Datum)
  /-- Print all combinators of the library with their types. -/
  | types
  /-- Print the truth table of an operator. -/
  | table (name : Datum)
  deriving Inhabited

namespace Command

/-- Why a command fails. -/
inductive Failure where
  /-- There is no such combinator. -/
  | noCombinator (reason : Library.LookupFailure)
  /-- There is no such operator. -/
  | noOperator (reason : Library.LookupFailure)
  /-- A term of the library is no selector. -/
  | notASelector
  deriving Inhabited

/-- What a command prints. -/
inductive Output where
  /-- A single line. -/
  | line (text : String)
  /-- Any number of lines. -/
  | lines (texts : List String)
  deriving Inhabited

/-- The printed lines, each with its end. -/
def Output.print : Output → String
  | line text => text ++ "\n"
  | lines texts => String.join (texts.map (· ++ "\n"))

/-- A text with blanks after it, up to the given width. -/
def padded (width : Nat) (text : String) : String :=
  text ++ String.ofList (List.replicate (width - text.length) ' ')

/-- The combinators of the library with their principal types, in columns. -/
def typeLines : List String :=
  let width := (Library.names.map String.length).foldl max 0
  Library.typedEntries.map fun (name, typed) => padded width name ++ " : " ++ typed.type.pretty

/-- The operator with a given name. -/
def operator? (name : Datum) : Except Library.LookupFailure TruthTable.Operator :=
  Library.find? TruthTable.Operator.name TruthTable.operators name

/-- Carry out a command. -/
def run : Command → Except Failure Output
  | combinator name =>
      match Library.lookup? name with
      | .ok term => .ok (.line term.render)
      | .error reason => .error (.noCombinator reason)
  | types => .ok (.lines typeLines)
  | table name =>
      match operator? name with
      | .ok operator =>
          match TruthTable.rows? operator with
          | some rows => .ok (.lines rows)
          | none => .error .notASelector
      | .error reason => .error (.noOperator reason)

/-- What is reported when a command fails. -/
def Failure.message : Failure → String
  | noCombinator reason => reason.message "combinator" Library.names
  | noOperator reason => reason.message "operator" (TruthTable.operators.map (·.name))
  | notASelector => "Not a boolean selector"

end Command
end Combinatory
