import Combinatory.CommandLine.Arguments

/-!
# The command line program

It prints what a command prints. Without a command it prints how it is used and ends with status 1,
and so it does, with a report, when a command fails.
-/

open Combinatory

/-- Read the arguments, carry out the command, and print what comes of it. -/
def main (arguments : List String) : IO UInt32 := do
  match CommandLine.read arguments with
  | .ok command =>
      match command.run with
      | .ok output =>
          IO.print output.print
          return 0
      | .error failure =>
          IO.eprintln failure.message
          return 1
  | .error .noCommand =>
      IO.print CommandLine.usage
      return 1
  | .error refusal =>
      IO.eprintln (refusal.message.getD "wrong number of arguments")
      return 1
