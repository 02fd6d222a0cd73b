import Combinatory.Lambda.Compile
import Combinatory.Proofs.Evaluation.Effect

/-!
# Asking for the term of a combinator

What comes of asking for the term of a combinator is decided by what is kept about it. A term that
is kept is returned. A combinator that is being compiled is refused. Any other one is marked as
being compiled, the object that it wraps is compiled, and the mark is taken off, whichever way that
ends.
-/

namespace Combinatory
namespace Lambda

namespace Combinator

/-- Why the term of a combinator is refused while it is being compiled. -/
def refusal (combinator : Combinator) : Failure :=
  match combinator.name? with
  | some name => .recursive name
  | none => .noAttribute

/-- The combinator while it is being compiled. -/
def begun (combinator : Combinator) : Combinator :=
  { combinator with compiling := true }

/-- The combinator after its compilation has failed. -/
def abandoned (combinator : Combinator) : Combinator :=
  { combinator with compiling := false }

/-- The combinator after it has been compiled to a term. -/
def completed (value : TypedTerm) (combinator : Combinator) : Combinator :=
  { combinator with compiling := false, term? := some value }

end Combinator

namespace Workbench

variable {bench : Workbench} {number other : Nat} {combinator : Combinator}
  {change : Combinator → Combinator}

/-- The state with one combinator changed. -/
def changed (bench : Workbench) (number : Nat) (change : Combinator → Combinator) : Workbench :=
  { bench with combinators := bench.combinators.modify number change }

theorem changed_same (found : bench.combinators[number]? = some combinator) :
    (bench.changed number change).combinators[number]? = some (change combinator) := by
  simp [changed, Array.getElem?_modify, found]

theorem changed_other (apart : other ≠ number) :
    (bench.changed number change).combinators[other]? = bench.combinators[other]? := by
  simp [changed, Array.getElem?_modify, apart.symm]

end Workbench

section Outcomes

variable {perform : Task → Work Object} {bench : Workbench} {number : Nat}
  {combinator : Combinator}

theorem outcome_termOf_absent (absent : bench.combinators[number]? = none) :
    (termOf perform number).outcome bench = (.error (.raised .noAttribute), bench) := by
  simp [termOf, ExceptT.outcome_bind, absent]

/-- A term that is kept is returned, and nothing is done. -/
theorem outcome_termOf_kept (found : bench.combinators[number]? = some combinator)
    {value : TypedTerm} (kept : combinator.term? = some value) :
    (termOf perform number).outcome bench = (.ok value, bench) := by
  simp [termOf, ExceptT.outcome_bind, found, kept]

/-- A combinator that is being compiled is refused, and nothing is done. -/
theorem outcome_termOf_compiling (found : bench.combinators[number]? = some combinator)
    (unkept : combinator.term? = none) (compiling : combinator.compiling = true) :
    (termOf perform number).outcome bench = (.error (.raised combinator.refusal), bench) := by
  simp only [termOf, ExceptT.outcome_bind, ExceptT.outcome_get, found, unkept, compiling, if_true,
    Combinator.refusal]
  cases combinator.name? <;> rfl

/-- The object that any other combinator wraps is compiled. -/
theorem outcome_termOf_idle (found : bench.combinators[number]? = some combinator)
    (unkept : combinator.term? = none) (idle : combinator.compiling = false) :
    (termOf perform number).outcome bench =
      match (compile perform combinator.source).outcome (bench.changed number .begun) with
      | (.ok value, after) => (.ok value, after.changed number (.completed value))
      | (.error interruption, after) => (.error interruption, after.changed number .abandoned) := by
  have begins (bench : Workbench) : (changeCombinator number fun combinator =>
      { combinator with compiling := true }).outcome bench =
        (.ok (), bench.changed number .begun) := rfl
  have abandons (bench : Workbench) : (changeCombinator number fun combinator =>
      { combinator with compiling := false }).outcome bench =
        (.ok (), bench.changed number .abandoned) := rfl
  have completes (value : TypedTerm) (bench : Workbench) : (changeCombinator number
      fun combinator => { combinator with compiling := false, term? := some value }).outcome bench =
        (.ok (), bench.changed number (.completed value)) := rfl
  simp only [termOf, ExceptT.outcome_bind, ExceptT.outcome_get, found, unkept, idle, begins,
    abandons, completes, Bool.false_eq_true, if_false, ExceptT.outcome_tryCatch,
    ExceptT.outcome_throw, ExceptT.outcome_pure]
  rcases (compile perform combinator.source).outcome (bench.changed number .begun) with
    ⟨_ | _, after⟩ <;> rfl

/-- What comes of asking for the term of a combinator, by what is kept about it. -/
inductive Answer (perform : Task → Work Object) (bench : Workbench) (number : Nat) :
    Except (Interruption Failure) TypedTerm × Workbench → Prop
  /-- There is no such combinator. -/
  | absent (absent : bench.combinators[number]? = none) :
      Answer perform bench number (.error (.raised .noAttribute), bench)
  /-- Its term is kept. -/
  | kept {combinator : Combinator} {value : TypedTerm}
      (found : bench.combinators[number]? = some combinator)
      (kept : combinator.term? = some value) : Answer perform bench number (.ok value, bench)
  /-- It is being compiled. -/
  | refused {combinator : Combinator} (found : bench.combinators[number]? = some combinator)
      (unkept : combinator.term? = none) (compiling : combinator.compiling = true) :
      Answer perform bench number (.error (.raised combinator.refusal), bench)
  /-- It is compiled. -/
  | completed {combinator : Combinator} {value : TypedTerm} {after : Workbench}
      (found : bench.combinators[number]? = some combinator) (unkept : combinator.term? = none)
      (idle : combinator.compiling = false)
      (compiled : (compile perform combinator.source).Returns (bench.changed number .begun) value
        after) :
      Answer perform bench number (.ok value, after.changed number (.completed value))
  /-- It is compiled in vain. -/
  | abandoned {combinator : Combinator} {interruption : Interruption Failure} {after : Workbench}
      (found : bench.combinators[number]? = some combinator) (unkept : combinator.term? = none)
      (idle : combinator.compiling = false)
      (failed : (compile perform combinator.source).Fails (bench.changed number .begun)
        interruption after) :
      Answer perform bench number (.error interruption, after.changed number .abandoned)

theorem answer_termOf (perform : Task → Work Object) (bench : Workbench) (number : Nat) :
    Answer perform bench number ((termOf perform number).outcome bench) := by
  cases found : bench.combinators[number]? with
  | none =>
      rw [outcome_termOf_absent found]
      exact .absent found
  | some combinator =>
      cases kept : combinator.term? with
      | some value =>
          rw [outcome_termOf_kept found kept]
          exact .kept found kept
      | none =>
          cases mark : combinator.compiling with
          | true =>
              rw [outcome_termOf_compiling found kept mark]
              exact .refused found kept mark
          | false =>
              rw [outcome_termOf_idle found kept mark]
              rcases ended : (compile perform combinator.source).outcome
                (bench.changed number .begun) with ⟨interruption | value, after⟩
              · exact .abandoned found kept mark ended
              · exact .completed found kept mark ended

end Outcomes

end Lambda
end Combinatory
