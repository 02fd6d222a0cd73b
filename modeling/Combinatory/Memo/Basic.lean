import Std.Data.HashMap

/-!
# Remembered results

A computation with a key is run once: its result is kept in a table of the state, and later
computations with an equal key are answered from there. A computation that fails leaves nothing
behind for its key, so the next one with that key runs again.
-/

namespace Combinatory
namespace Memo

/-- A place in a state that holds a table of results. -/
structure Slot (σ κ ν : Type) [BEq κ] [Hashable κ] where
  /-- The table in a state. -/
  read : σ → Std.HashMap κ ν
  /-- The state with the table replaced. -/
  write : Std.HashMap κ ν → σ → σ

/-- Answer from the table, or run the computation and keep its result. -/
def remember {σ ε κ ν : Type} [BEq κ] [Hashable κ] (slot : Slot σ κ ν) (key : κ)
    (computation : ExceptT ε (StateM σ) ν) : ExceptT ε (StateM σ) ν := do
  match (slot.read (← get))[key]? with
  | some result => return result
  | none =>
      let result ← computation
      modify fun state => slot.write ((slot.read state).insert key result) state
      return result

end Memo
end Combinatory
