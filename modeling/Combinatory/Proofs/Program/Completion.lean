import Combinatory.Proofs.Lambda.Simulation
import Combinatory.Proofs.Program.Progress

/-!
# Computations put off complete once

A computation that has completed is never run again: forcing it gives its result. One that fails is
left as it is, so forcing it later runs it again. There is one way in which a computation can
complete twice: it has itself forced while it runs, and both runs complete. The results may differ
then, and the one of the outer run is kept.
-/

namespace Combinatory
namespace Program

namespace Machine

variable {machine after later : Machine} {number : Nat} {result : Val} {computation : Computation}

/-- The computation with the number has been completed with the result. -/
def Holds (machine : Machine) (number : Nat) (result : Val) : Prop :=
  machine.thunks[number]? = some (.forced result)

/-- The computation with the number has not been completed. -/
def Awaits (machine : Machine) (number : Nat) (computation : Computation) : Prop :=
  machine.thunks[number]? = some (.pending computation)

theorem Holds.isForced (holds : machine.Holds number result) : machine.isForced number = true := by
  rw [Machine.isForced, show machine.thunks[number]? = _ from holds]

theorem Awaits.isForced (awaits : machine.Awaits number computation) :
    machine.isForced number = false := by
  rw [Machine.isForced, show machine.thunks[number]? = _ from awaits]

/-- What has not been completed later has not been completed before, and is the same computation. -/
theorem Advances.awaits (advances : machine.Advances later)
    (awaits : machine.Awaits number computation) (open_still : later.isForced number = false) :
    later.Awaits number computation := by
  rcases advances.pending awaits with still | ⟨result, forced⟩
  · exact still
  · have completed : later.isForced number = true := Holds.isForced forced
    rw [open_still] at completed
    cases completed

end Machine

section Forcing

variable {evaluate : Scope → Expr → Run Val} {machine after later : Machine} {number : Nat}
  {result : Val} {computation : Computation}

/-- When it is forced in a state, the computation with the number is run to its end. It gives the
result, which is kept, and another state. -/
def CompletesIn (evaluate : Scope → Expr → Run Val) (machine : Machine) (number : Nat)
    (result : Val) (after : Machine) : Prop :=
  ∃ computation middle, machine.Awaits number computation ∧
    (compute evaluate computation).Returns machine result middle ∧
      after = middle.complete number result

theorem force_returns_of_holds (holds : machine.Holds number result) :
    (force evaluate (.host (.thunk number))).Returns machine result machine := by
  rw [ExceptT.Returns, outcome_force holds]
  rfl

theorem outcome_force_of_awaits (awaits : machine.Awaits number computation) :
    (force evaluate (.host (.thunk number))).outcome machine =
      match (compute evaluate computation).outcome machine with
      | (.ok result, after) => (.ok result, after.complete number result)
      | (.error interruption, after) => (.error interruption, after) :=
  (outcome_force awaits).trans (outcome_complete_pending evaluate number computation machine)

/-- A force that returns finds the result, or runs the computation to its end. -/
theorem holds_or_completesIn
    (returned : (force evaluate (.host (.thunk number))).Returns machine result after) :
    machine.Holds number result ∧ after = machine ∨
      CompletesIn evaluate machine number result after := by
  cases there : machine.thunks[number]? with
  | none =>
      simp only [ExceptT.Returns, force, ExceptT.outcome_bind, ExceptT.outcome_get,
        there] at returned
      cases returned
  | some thunk =>
      cases thunk with
      | forced kept =>
          cases (force_returns_of_holds there).symm.trans returned
          exact .inl ⟨there, rfl⟩
      | pending computation =>
          rw [ExceptT.Returns, outcome_force_of_awaits there] at returned
          rcases ended : (compute evaluate computation).outcome machine with ⟨_ | value, middle⟩
          · rw [ended] at returned
            cases returned
          · rw [ended] at returned
            cases returned
            exact .inr ⟨computation, middle, there, ended, rfl⟩

theorem CompletesIn.holds (advancing : ∀ scope expr, Advancing (evaluate scope expr))
    (completes : CompletesIn evaluate machine number result after) : after.Holds number result := by
  obtain ⟨computation, middle, awaits, returned, rfl⟩ := completes
  have advances := (advancing_compute advancing computation).outcome machine
  rw [show (compute evaluate computation).outcome machine = _ from returned] at advances
  obtain ⟨thunk, there, -⟩ := advances number _ awaits
  exact Machine.complete_there there result

/-- What has been completed is not run. -/
theorem not_completesIn_of_isForced (forced : machine.isForced number = true) :
    ¬ CompletesIn evaluate machine number result after := by
  rintro ⟨computation, middle, awaits, -⟩
  rw [awaits.isForced] at forced
  cases forced

end Forcing

/-- A program takes computations put off forward only. So let expressions be evaluated in any way
that does. A force that returns has found the result or run the computation to its end, and the
result is there afterwards. Once there, it is what every force gives at any later time, without
running anything. If the computation is run to its end and was not completed in the meantime by a
force that it has made itself, then the force completes it for the first time, and no force made in
the meantime has completed it. If the computation fails, then so does the force, for the same
reason; unless the computation was completed in the meantime, it stays what it is, and a later force
runs it again. -/
theorem computations_complete_once (steps number : Nat) :
    (∀ (session : List Step) (machine : Machine),
      machine.Advances ((session.mapM (Step.run steps)).run machine).2) ∧
    (∀ scope expr (machine : Machine),
      machine.Advances ((evaluate steps scope expr).outcome machine).2) ∧
    (∀ scope expr, Advancing (evaluate steps scope expr)) ∧
    (∀ (machine later : Machine) result, machine.Holds number result → machine.Advances later →
      later.Holds number result ∧
        ∀ evaluator, (force evaluator (.host (.thunk number))).Returns later result later ∧
          ∀ other after, ¬ CompletesIn evaluator later number other after) ∧
    ∀ evaluator : Scope → Expr → Run Val, (∀ scope expr, Advancing (evaluator scope expr)) →
      (∀ (machine : Machine) result after,
        (force evaluator (.host (.thunk number))).Returns machine result after →
          after.Holds number result ∧
            (machine.Holds number result ∧ after = machine ∨
              CompletesIn evaluator machine number result after)) ∧
      (∀ (machine : Machine) computation result middle, machine.Awaits number computation →
        (compute evaluator computation).Returns machine result middle →
          middle.isForced number = false →
            (force evaluator (.host (.thunk number))).Returns machine result
                (middle.complete number result) ∧
              (∀ other, other ≠ number →
                (middle.complete number result).thunks[other]? = middle.thunks[other]?) ∧
              ∀ nested : Scope → Expr → Run Val, (∀ scope expr, Advancing (nested scope expr)) →
                ∀ inner other (after : Machine), after.Advances middle →
                  ¬ CompletesIn nested inner number other after) ∧
      (∀ (machine : Machine) computation reason after, machine.Awaits number computation →
        (compute evaluator computation).Fails machine reason after →
          (force evaluator (.host (.thunk number))).Fails machine reason after ∧
            machine.Advances after ∧
            (after.isForced number = false → ∀ later, after.Advances later →
              later.isForced number = false → ∀ again,
                (force again (.host (.thunk number))).outcome later =
                  ((Thunk.pending computation).complete again number).outcome later)) := by
  refine ⟨advances_session steps,
    fun scope expr => (advancing_evaluate steps scope expr).outcome, advancing_evaluate steps,
    ?completed, fun evaluator advancing => ⟨?returning, ?completing, ?failing⟩⟩
  case completed =>
    intro machine later result holds advances
    have later_holds : later.Holds number result := advances.forced holds
    exact ⟨later_holds, fun evaluator => ⟨force_returns_of_holds later_holds,
      fun other after => not_completesIn_of_isForced later_holds.isForced⟩⟩
  case returning =>
    intro machine result after returned
    rcases holds_or_completesIn returned with ⟨holds, rfl⟩ | completes
    · exact ⟨holds, .inl ⟨holds, rfl⟩⟩
    · exact ⟨completes.holds advancing, .inr completes⟩
  case completing =>
    intro machine computation result middle awaits returned alone
    refine ⟨?_, fun other ne => Machine.complete_other ne middle result, ?_⟩
    · rw [ExceptT.Returns, outcome_force_of_awaits awaits,
        show (compute evaluator computation).outcome machine = _ from returned]
    · intro nested nested_advancing inner other after earlier completes
      have after_holds : after.Holds number other := completes.holds nested_advancing
      have middle_holds : middle.Holds number other := earlier.forced after_holds
      rw [middle_holds.isForced] at alone
      cases alone
  case failing =>
    intro machine computation reason after awaits failed
    have advances := (advancing_compute advancing computation).outcome machine
    rw [show (compute evaluator computation).outcome machine = _ from failed] at advances
    refine ⟨?_, advances, ?_⟩
    · rw [ExceptT.Fails, outcome_force_of_awaits awaits,
        show (compute evaluator computation).outcome machine = _ from failed]
    · intro after_open later later_advances later_open again
      exact outcome_force ((advances.trans later_advances).awaits awaits later_open)

/-- A computation that counts its runs is run once, and one that raises an error is run again. -/
theorem counting_and_raising_completed :
    let counting : Computation := .suspended (.count "runs") []
    let raising : Computation := .suspended (.raise "refused") []
    let machine : Machine :=
      { Machine.initial with thunks := #[.pending counting, .pending raising] }
    let counted : Machine := { machine with counters := [("runs", 1)] }
    let after := counted.complete 0 (literal (.int 1))
    (∀ scope expr, Advancing (evaluate 5 scope expr)) ∧
      (force (evaluate 5) (.host (.thunk 0))).Returns machine (literal (.int 1)) after ∧
      after.Holds 0 (literal (.int 1)) ∧
      (∀ evaluator, (force evaluator (.host (.thunk 0))).Returns after (literal (.int 1)) after) ∧
      (force (evaluate 5) (.host (.thunk 1))).Fails machine (.raised (.host "refused")) machine ∧
      ∀ evaluator, (force evaluator (.host (.thunk 1))).outcome after =
        ((Thunk.pending raising).complete evaluator 1).outcome after := by
  intro counting raising machine counted after
  obtain ⟨-, -, advancing, completed, first⟩ := computations_complete_once 5 0
  obtain ⟨returning, completing, -⟩ := first (evaluate 5) advancing
  obtain ⟨-, -, -, -, second⟩ := computations_complete_once 5 1
  obtain ⟨-, -, failing⟩ := second (evaluate 5) advancing
  have returned := (completing machine counting (literal (.int 1)) counted rfl rfl rfl).1
  have holds := (returning machine _ after returned).1
  have failed := failing machine raising (.raised (.host "refused")) machine rfl rfl
  have waiting : machine.thunks[0]? = some (.pending counting) := rfl
  have unchanged : machine.Advances counted := Machine.advances_of_eq rfl
  have advances : machine.Advances after := unchanged.complete waiting _
  have kept := (completed after after _ holds (.refl after)).2
  exact ⟨advancing, returned, holds, fun evaluator => (kept evaluator).1, failed.1,
    failed.2.2 rfl after advances rfl⟩

/-! ## A computation that completes twice -/

/-- A combinator term is recognized, whatever is remembered. -/
theorem combinatorTerm_returns (term : Term) (registry : Registry) :
    ∃ result after, (Registry.combinatorTerm (.ofTerm term)).Returns registry result after := by
  have remembered {key : Shape} {computation : Registry.Access Term} {before : Registry}
      (made : ∃ result after, computation.Returns before result after) :
      ∃ result after,
        (Memo.remember Registry.combinatorSlot key computation).Returns before result after := by
    obtain ⟨result, after, returned⟩ := made
    simp only [ExceptT.Returns, Registry.outcome_remember]
    cases (Registry.combinatorSlot.read before)[key]? with
    | some kept => exact ⟨kept, before, rfl⟩
    | none =>
        rw [show computation.outcome before = _ from returned]
        exact ⟨_, _, rfl⟩
  have asked : ∃ result after, (Registry.ask Registry.combinatorSlot .combinatorTerm
      (.ofTerm term)).Returns registry result after := by
    induction term generalizing registry with
    | app fn arg fn_ih arg_ih =>
        obtain ⟨fnTerm, after_fn, fn_returned⟩ := fn_ih registry
        obtain ⟨argTerm, after_arg, arg_returned⟩ := arg_ih after_fn
        have both : (Question.combinatorTerm.both
            (Registry.ask Registry.combinatorSlot .combinatorTerm (.ofTerm fn))
            (Registry.ask Registry.combinatorSlot .combinatorTerm (.ofTerm arg))).Returns registry
              (fnTerm, argTerm) after_arg :=
          fn_returned.bind (arg_returned.bind rfl)
        exact remembered ⟨_, _, ExceptT.Returns.bind rfl (both.bind rfl)⟩
    | _ => exact remembered ⟨_, _, rfl⟩
  obtain ⟨result, after, returned⟩ := asked
  refine ⟨result, after, ExceptT.Returns.bind ?_ returned⟩
  simp [Registry.operand, Registry.keyable, RawTerm.proper?_ofTerm, RawTerm.keyable?_ofTerm,
    ExceptT.Returns, ExceptT.outcome_bind, ExceptT.outcome_ofExcept]

/-- The selector for a truth value. -/
def selectorOf (flag : Bool) : Val :=
  if flag then .constant else .constantly .identity

/-- The truth value of what an expression gives is encoded, and nothing else happens. -/
theorem encode_returns {steps : Nat} {scope : Scope} {expr : Expr} {machine after : Machine}
    {value : Val} (returned : (evaluate (steps + 1) scope expr).Returns machine value after) :
    ∃ bench, (evaluate (steps + 2) scope (.encode expr)).Returns machine
      (selectorOf (isTruthy value)) { after with bench } := by
  obtain ⟨term, terms, recognized⟩ :=
    combinatorTerm_returns (Library.selector (isTruthy value)) after.bench.terms
  let bench : Lambda.Workbench := { after.bench with terms }
  have consulted : (onBench (Lambda.consult (Registry.combinatorTerm
      (.ofTerm (Library.selector (isTruthy value)))))).Returns after term { after with bench } := by
    have work : (Lambda.consult (Registry.combinatorTerm
      (.ofTerm (Library.selector (isTruthy value))))).run.run after.bench = (.ok term, bench) :=
      Lambda.consult_returns recognized
    simp only [ExceptT.Returns, onBench, ExceptT.outcome_bind, ExceptT.outcome_get, work]
    rfl
  refine ⟨bench, returned.bind (consulted.bind ?_)⟩
  cases isTruthy value <;> rfl

/-- A computation that has itself forced the first time it runs, and adds ten to what that gives.
The second time it gives seven. -/
def selfForcing : Expr :=
  .branch (.encode (.arithmetic .sub (.count "runs") (.literal (.int 2))))
    (.thunk (.arithmetic .add (.force (.get "itself")) (.literal (.int 10))))
    (.thunk (.literal (.int 7)))

/-- The state in which the computation has been put off under its name. -/
def selfForcingMachine : Machine :=
  { Machine.initial with
    session := [("itself", .host (.thunk 0))]
    thunks := #[.pending (.suspended selfForcing [])] }

/-- The state in which the computation has counted a run and put both of its branches off. -/
def enterSelfForcing (machine : Machine) (count : Nat) (bench : Lambda.Workbench) : Machine :=
  { machine with
    counters := ("runs", count) :: machine.counters
    thunks := (machine.thunks.push (.pending (.suspended
        (.arithmetic .add (.force (.get "itself")) (.literal (.int 10))) []))).push
      (.pending (.suspended (.literal (.int 7)) []))
    bench }

theorem outcome_selfForcing (steps : Nat) {machine : Machine} {count : Nat}
    (counted : (machine.counters.lookup "runs").getD 0 + 1 = count) :
    ∃ bench, (evaluate (steps + 4) [] selfForcing).outcome machine =
      (force (evaluate (steps + 3)) (.host (.thunk
        (if count = 2 then machine.thunks.size + 1 else machine.thunks.size)))).outcome
          (enterSelfForcing machine count bench) := by
  have difference : (evaluate (steps + 2) []
      (.arithmetic .sub (.count "runs") (.literal (.int 2)))).Returns machine
        (literal (.int (count - 2)))
          { machine with counters := ("runs", count) :: machine.counters } := by
    subst counted
    rfl
  obtain ⟨bench, encoded⟩ := encode_returns difference
  refine ⟨bench, ?_⟩
  have entered : (evaluate (steps + 4) [] selfForcing).outcome machine =
      (branch (evaluate (steps + 3)) (steps + 3)
        (selectorOf (isTruthy (literal (.int (count - 2))))) (.host (.thunk machine.thunks.size))
          (.host (.thunk (machine.thunks.size + 1)))).outcome
            (enterSelfForcing machine count bench) := by
    rw [← Array.size_push]
    exact encoded.outcome_bind _
  rw [entered]
  by_cases second : count = 2
  · subst second
    rfl
  · have truthy : isTruthy (literal (.int (count - 2))) = true := by
      simp [isTruthy, literal, Literal.isTruthy, Literal.representative]
      omega
    rw [truthy, if_neg second]
    rfl

/-- Put off under its name, the computation has itself forced once. Its first run completes with
seventeen, when its second run has completed with seven, and seventeen is kept. -/
theorem selfForcing_completes_twice :
    ((Step.run 20 ⟨.thunk selfForcing, some "itself", none⟩).run .initial).2 = selfForcingMachine ∧
    ∃ middle, (compute (evaluate 20) (.suspended selfForcing [])).Returns selfForcingMachine
        (literal (.int 17)) middle ∧
      middle.Holds 0 (literal (.int 7)) ∧
        (force (evaluate 20) (.host (.thunk 0))).Returns selfForcingMachine (literal (.int 17))
          (middle.complete 0 (literal (.int 17))) := by
  have never_counted : (selfForcingMachine.counters.lookup "runs").getD 0 + 1 = 1 := rfl
  obtain ⟨first_bench, first_entered⟩ := outcome_selfForcing 16 never_counted
  let first := enterSelfForcing selfForcingMachine 1 first_bench
  have counted_once : (first.counters.lookup "runs").getD 0 + 1 = 2 := rfl
  obtain ⟨second_bench, second_entered⟩ := outcome_selfForcing 13 counted_once
  let second := enterSelfForcing first 2 second_bench
  let seven := (second.complete 4 (literal (.int 7))).complete 0 (literal (.int 7))
  have second_run :
      (force (evaluate 17) (.host (.thunk 0))).Returns first (literal (.int 7)) seven := by
    have awaits : first.Awaits 0 (.suspended selfForcing []) := rfl
    have selected : second.Awaits 4 (.suspended (.literal (.int 7)) []) := rfl
    have completed : (compute (evaluate 17) (.suspended selfForcing [])).outcome first =
        (.ok (literal (.int 7)), second.complete 4 (literal (.int 7))) :=
      second_entered.trans (outcome_force_of_awaits selected)
    rw [ExceptT.Returns, outcome_force_of_awaits awaits, completed]
  have first_run : (compute (evaluate 20) (.suspended selfForcing [])).Returns selfForcingMachine
      (literal (.int 17)) (seven.complete 1 (literal (.int 17))) := by
    have selected : first.Awaits 1 (.suspended
        (.arithmetic .add (.force (.get "itself")) (.literal (.int 10))) []) := rfl
    have forced_itself : (evaluate 18 [] (.force (.get "itself"))).Returns first
        (literal (.int 7)) seven :=
      ExceptT.Returns.bind rfl second_run
    have added : (compute (evaluate 19) (.suspended
        (.arithmetic .add (.force (.get "itself")) (.literal (.int 10))) [])).outcome first =
          (.ok (literal (.int 17)), seven) := by
      change (evaluate 18 [] (.force (.get "itself")) >>= _).outcome first = _
      rw [forced_itself.outcome_bind]
      rfl
    refine first_entered.trans ?_
    change (force (evaluate 19) (.host (.thunk 1))).outcome first = _
    rw [outcome_force_of_awaits selected, added]
  refine ⟨rfl, _, first_run, rfl, ?_⟩
  have awaits : selfForcingMachine.Awaits 0 (.suspended selfForcing []) := rfl
  rw [ExceptT.Returns, outcome_force_of_awaits awaits,
    show (compute (evaluate 20) (.suspended selfForcing [])).outcome _ = _ from first_run]

end Program
end Combinatory
