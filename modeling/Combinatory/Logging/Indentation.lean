/-!
# Indented log lines

Log lines are indented by the depth of the call that writes them, measured from the smallest depth
seen so far.
-/

namespace Combinatory

/-- The state of a formatter of log lines. -/
structure Indentation where
  /-- The smallest depth seen so far, if any line has been formatted. -/
  lowest? : Option Int
  deriving DecidableEq, Inhabited, Repr

namespace Indentation

/-- The state before the first line. -/
def start : Indentation := ⟨none⟩

/-- The smallest depth seen once a line of the given depth is written. -/
def lowestWith (state : Indentation) (depth : Int) : Int :=
  match state.lowest? with
  | none => depth
  | some lowest => min lowest depth

/-- The number of blanks by which a line of the given depth is indented. -/
def indent (state : Indentation) (depth : Int) : Nat :=
  (depth - state.lowestWith depth).toNat

/-- Format a line written at the given depth. -/
def format (depth : Int) (message : String) : StateM Indentation String := do
  let state ← get
  set (⟨some (state.lowestWith depth)⟩ : Indentation)
  return String.ofList (List.replicate (state.indent depth) ' ') ++ " " ++ message

/-- Format lines one after another. -/
def formatAll (lines : List (Int × String)) : List String :=
  ((lines.mapM fun (depth, message) => format depth message).run start).1

end Indentation
end Combinatory
