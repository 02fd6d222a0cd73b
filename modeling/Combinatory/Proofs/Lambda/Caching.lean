import Combinatory.Proofs.Lambda.Preservation

/-!
# What is kept about combinators

Whatever is done in a session, a combinator that is being compiled is being compiled afterwards and
has got no term meanwhile, one that is not being compiled is not being compiled afterwards, and a
term that is kept stays. So in every state between two pieces of work no combinator is being
compiled, and a term is returned whenever it is asked for after it has been returned once.
-/

namespace Combinatory
namespace Lambda

/-- What may become of a combinator. -/
structure Combinator.Becomes (before after : Combinator) : Prop where
  /-- It wraps the same object. -/
  source_eq : after.source = before.source
  /-- It has the same name. -/
  name_eq : after.name? = before.name?
  /-- It is being compiled if it was. -/
  compiling_eq : after.compiling = before.compiling
  /-- A term that it has stays. -/
  keeps : ∀ value, before.term? = some value → after.term? = some value
  /-- It gets no term while it is being compiled. -/
  waits : before.compiling = true → after.term? = before.term?

namespace Combinator

theorem Becomes.refl (combinator : Combinator) : combinator.Becomes combinator where
  source_eq := rfl
  name_eq := rfl
  compiling_eq := rfl
  keeps _ := id
  waits _ := rfl

theorem Becomes.trans {before middle after : Combinator} (first : before.Becomes middle)
    (second : middle.Becomes after) : before.Becomes after where
  source_eq := second.source_eq.trans first.source_eq
  name_eq := second.name_eq.trans first.name_eq
  compiling_eq := second.compiling_eq.trans first.compiling_eq
  keeps value kept := second.keeps value (first.keeps value kept)
  waits compiling :=
    (second.waits (first.compiling_eq.trans compiling)).trans (first.waits compiling)

/-- A combinator that has been compiled has become one with a term. -/
theorem Becomes.completed {before after : Combinator} (unkept : before.term? = none)
    (idle : before.compiling = false) (becomes : before.begun.Becomes after) (value : TypedTerm) :
    before.Becomes (after.completed value) where
  source_eq := becomes.source_eq
  name_eq := becomes.name_eq
  compiling_eq := idle.symm
  keeps other kept := by
    rw [unkept] at kept
    cases kept
  waits compiling := by
    rw [idle] at compiling
    cases compiling

/-- A combinator whose compilation has failed is as it was. -/
theorem Becomes.abandoned {before after : Combinator} (idle : before.compiling = false)
    (becomes : before.begun.Becomes after) : before.Becomes after.abandoned where
  source_eq := becomes.source_eq
  name_eq := becomes.name_eq
  compiling_eq := idle.symm
  keeps value kept := becomes.keeps value kept
  waits compiling := by
    rw [idle] at compiling
    cases compiling

end Combinator

namespace Workbench

/-- What may become of the combinators of a session. -/
structure Progresses (before after : Workbench) : Prop where
  /-- A combinator stays, with what may become of it. -/
  becomes : ∀ {number : Nat} {combinator : Combinator},
    before.combinators[number]? = some combinator →
      ∃ other, after.combinators[number]? = some other ∧ combinator.Becomes other
  /-- One that has been added is not being compiled. -/
  idle : ∀ {number : Nat} {combinator : Combinator}, before.combinators[number]? = none →
    after.combinators[number]? = some combinator → combinator.compiling = false

variable {before middle after : Workbench}

theorem progresses_of_eq (same : after.combinators = before.combinators) :
    before.Progresses after where
  becomes {_ combinator} found := ⟨combinator, by rw [same, found], .refl combinator⟩
  idle absent found := by
    rw [same, absent] at found
    cases found

theorem Progresses.trans (first : before.Progresses middle) (second : middle.Progresses after) :
    before.Progresses after where
  becomes found := by
    obtain ⟨_, middle_found, middle_becomes⟩ := first.becomes found
    obtain ⟨other, after_found, after_becomes⟩ := second.becomes middle_found
    exact ⟨other, after_found, middle_becomes.trans after_becomes⟩
  idle {number combinator} absent found := by
    cases middle_found : middle.combinators[number]? with
    | none => exact second.idle middle_found found
    | some added =>
        obtain ⟨_, after_found, becomes⟩ := second.becomes middle_found
        cases found.symm.trans after_found
        exact becomes.compiling_eq.trans (first.idle absent middle_found)

theorem progresses_push {combinator : Combinator} (idle : combinator.compiling = false) :
    before.Progresses { before with combinators := before.combinators.push combinator } where
  becomes {number found_combinator} found := by
    have inside := (Array.getElem?_eq_some_iff.mp found).1
    exact ⟨found_combinator, by simp [Array.getElem?_push, inside.ne, found], .refl _⟩
  idle {number added} absent found := by
    simp only [Array.getElem?_push] at found
    split at found
    · cases found
      exact idle
    · rw [absent] at found
      cases found

/-- What may become of the others while a combinator is compiled may become of all if it may become
of this one. -/
theorem Progresses.around {number : Nat} {combinator : Combinator}
    {change : Combinator → Combinator} (found : before.combinators[number]? = some combinator)
    (progresses : (before.changed number .begun).Progresses after)
    (changes : ∀ other, combinator.begun.Becomes other → combinator.Becomes (change other)) :
    before.Progresses (after.changed number change) where
  becomes {place other} other_found := by
    by_cases same : place = number
    · subst same
      cases found.symm.trans other_found
      obtain ⟨begun, begun_found, becomes⟩ := progresses.becomes (changed_same found)
      exact ⟨change begun, changed_same begun_found, changes begun becomes⟩
    · rw [changed_other same]
      exact progresses.becomes ((changed_other same).trans other_found)
  idle {place other} absent other_found := by
    have apart : place ≠ number := by
      rintro rfl
      cases absent.symm.trans found
    rw [changed_other apart] at other_found
    exact progresses.idle ((changed_other apart).trans absent) other_found

instance : Law Progresses where
  refl _ := progresses_of_eq rfl
  trans := Progresses.trans
  drawn _ _ := progresses_of_eq rfl
  logged _ _ := progresses_of_eq rfl
  named _ _ := progresses_of_eq rfl
  consulted _ _ _ := progresses_of_eq rfl
  wrapped _ _ _ := progresses_push rfl
  asked {perform number} compiles before := by
    have answer := answer_termOf perform before number
    generalize (termOf perform number).outcome before = ended at answer
    cases answer with
    | absent | kept | refused => exact progresses_of_eq rfl
    | completed found unkept idle compiled =>
        exact ((compiles _).after_returns compiled).around found
          fun _ becomes => becomes.completed unkept idle _
    | abandoned found _ idle failed =>
        exact ((compiles _).after_fails failed).around found fun _ becomes => becomes.abandoned idle

/-! ## Marks and terms -/

/-- No combinator is being compiled. -/
def Quiet (bench : Workbench) : Prop :=
  ∀ (number : Nat) (combinator : Combinator),
    bench.combinators[number]? = some combinator → combinator.compiling = false

/-- The combinator has been compiled to the term, which is kept. -/
def Caches (bench : Workbench) (number : Nat) (value : TypedTerm) : Prop :=
  ∃ combinator, bench.combinators[number]? = some combinator ∧ combinator.term? = some value

theorem Quiet.progresses (quiet : before.Quiet) (progresses : before.Progresses after) :
    after.Quiet := by
  intro number other found
  cases before_found : before.combinators[number]? with
  | none => exact progresses.idle before_found found
  | some combinator =>
      obtain ⟨_, after_found, becomes⟩ := progresses.becomes before_found
      cases found.symm.trans after_found
      exact becomes.compiling_eq.trans (quiet number combinator before_found)

theorem Caches.progresses {number : Nat} {value : TypedTerm} (caches : before.Caches number value)
    (progresses : before.Progresses after) : after.Caches number value := by
  obtain ⟨combinator, found, kept⟩ := caches
  obtain ⟨other, after_found, becomes⟩ := progresses.becomes found
  exact ⟨other, after_found, becomes.keeps value kept⟩

end Workbench

section Terms

variable {perform : Task → Work Object} {bench after : Workbench} {number : Nat}

/-- A term that is kept is returned without doing anything. -/
theorem termOf_returns_of_caches {value : TypedTerm} (caches : bench.Caches number value) :
    (termOf perform number).Returns bench value bench := by
  obtain ⟨combinator, found, kept⟩ := caches
  exact outcome_termOf_kept found kept

/-- A term that is returned is kept. -/
theorem caches_of_termOf_returns (performs : ∀ task, Keeps Workbench.Progresses (perform task))
    {value : TypedTerm} (returned : (termOf perform number).Returns bench value after) :
    after.Caches number value := by
  have answer := answer_termOf perform bench number
  rw [show (termOf perform number).outcome bench = _ from returned] at answer
  cases answer with
  | kept found kept => exact ⟨_, found, kept⟩
  | completed found _ _ compiled =>
      obtain ⟨_, begun_found, -⟩ :=
        ((keeps_compile performs _).after_returns compiled).becomes (Workbench.changed_same found)
      exact ⟨_, Workbench.changed_same begun_found, rfl⟩

/-- Nothing is kept for a combinator whose term is asked for in vain. -/
theorem not_caches_of_termOf_fails (performs : ∀ task, Keeps Workbench.Progresses (perform task))
    {interruption : Interruption Failure}
    (failed : (termOf perform number).Fails bench interruption after) (value : TypedTerm) :
    ¬ after.Caches number value := by
  rintro ⟨other, after_found, after_kept⟩
  have answer := answer_termOf perform bench number
  rw [show (termOf perform number).outcome bench = _ from failed] at answer
  cases answer with
  | absent absent => cases absent.symm.trans after_found
  | refused found unkept =>
      cases found.symm.trans after_found
      cases unkept.symm.trans after_kept
  | abandoned found unkept _ compile_failed =>
      obtain ⟨begun, begun_found, becomes⟩ := ((keeps_compile performs _).after_fails
        compile_failed).becomes (Workbench.changed_same found)
      cases (Workbench.changed_same begun_found).symm.trans after_found
      have begun_unkept : begun.term? = none := (becomes.waits rfl).trans unkept
      cases begun_unkept.symm.trans after_kept

end Terms

end Lambda
end Combinatory
