import Combinatory.Memo.Recursion
import Combinatory.Proofs.Term.Sharing
import Mathlib.Data.List.Nodup
import Mathlib.Logic.Relation
import Mathlib.Order.WellFounded

/-!
# Remembering results is transparent

A function that calls itself is called through the table of its results, and so are the calls that
it makes. If these are always for keys further down, and equal keys have equal outcomes, then every
call comes to what the function without a table comes to. The function completes once at most for
every key, and what has been completed is remembered, also where a call around it has failed; for a
call that fails nothing is remembered.

While the function runs for a key, only keys further down are completed. So the key itself is still
missing when the result is kept, and this is what makes a second completion impossible.
-/

namespace Combinatory
namespace Memo
namespace Remembered

/-! ## The function without a table -/

/-- The key that the result of a call is kept by. -/
def keyShape? (arity : Arity) (args : List Datum) : Option Shape :=
  (key? arity args).bind fun key => if key.unkeyable?.isNone then some key.shape else none

section

variable {ε ν : Type} {arity : Arity} {function : List Datum → Course ε ν} {course : Course ε ν}
  {args other : List Datum} {key lower : Shape} {outcome : Except ε ν}

/-- The outcome of a course, where all calls are made to the function itself. -/
inductive Ends (function : List Datum → Course ε ν) : Course ε ν → Except ε ν → Prop
  /-- The course ends. -/
  | ends (outcome : Except ε ν) : Ends function (.ends outcome) outcome
  /-- A call comes to something, and from there the course is followed further. -/
  | calls {args : List Datum} {next : Except ε ν → Course ε ν} {given outcome : Except ε ν}
      (nested : Ends function (function args) given) (rest : Ends function (next given) outcome) :
      Ends function (.calls args next) outcome

/-- A call is made on the way of a course. -/
inductive Calls (function : List Datum → Course ε ν) : Course ε ν → List Datum → Prop
  /-- It is made at once. -/
  | here {args : List Datum} {next : Except ε ν → Course ε ν} :
      Calls function (.calls args next) args
  /-- It is made after another call has come to something. -/
  | later {args other : List Datum} {next : Except ε ν → Course ε ν} {given : Except ε ν}
      (nested : Ends function (function args) given) (rest : Calls function (next given) other) :
      Calls function (.calls args next) other

/-- A call with the key makes a call with the lower key. -/
def Below (arity : Arity) (function : List Datum → Course ε ν) (lower key : Shape) : Prop :=
  ∃ args other, keyShape? arity args = some key ∧ Calls function (function args) other ∧
    keyShape? arity other = some lower

/-- The function can do with remembered results. -/
structure Regular (arity : Arity) (function : List Datum → Course ε ν) : Prop where
  /-- The calls that it makes have keys. -/
  keyed : ∀ args, (keyShape? arity args).isSome → ∀ other, Calls function (function args) other →
    (keyShape? arity other).isSome
  /-- The calls go down. -/
  descends : WellFounded (Below arity function)
  /-- Calls with equal keys have equal outcomes. -/
  agrees : ∀ args other key, keyShape? arity args = some key → keyShape? arity other = some key →
    ∀ outcome, Ends function (function args) outcome → Ends function (function other) outcome

theorem Ends.unique {another : Except ε ν} (ended : Ends function course outcome)
    (also_ended : Ends function course another) : outcome = another := by
  induction ended generalizing another with
  | ends outcome =>
      cases also_ended
      rfl
  | calls _ _ nested_ih rest_ih =>
      cases also_ended with
      | calls nested rest =>
          obtain rfl := nested_ih nested
          exact rest_ih rest

/-! ## What has been completed -/

/-- The key under which an event completes the function. -/
def Event.completedKey? (arity : Arity) : Event → Option Shape
  | began _ => none
  | completed args => keyShape? arity args

/-- The keys under which the function has been completed, one for each time. -/
def completions (arity : Arity) (events : List Event) : List Shape :=
  events.filterMap (Event.completedKey? arity)

@[simp]
theorem completions_append (arity : Arity) (events more : List Event) :
    completions arity (events ++ more) = completions arity events ++ completions arity more :=
  List.filterMap_append

/-- Everything in the table is the result of a call with its key. -/
def Right (arity : Arity) (function : List Datum → Course ε ν) (results : Std.HashMap Shape ν) :
    Prop :=
  ∀ (key : Shape) (result : ν), results[key]? = some result →
    ∃ args, keyShape? arity args = some key ∧ Ends function (function args) (.ok result)

/-- From one state to the other the events have happened. -/
structure Leads (arity : Arity) (function : List Datum → Course ε ν) (within : Shape → Prop)
    (before after : Remembered (List Event) ν) (events : List Event) : Prop where
  /-- The events have been noted. -/
  noted : after.state = before.state ++ events
  /-- The function is completed at most once for a key. -/
  once : (completions arity events).Nodup
  /-- It is completed for keys within bounds, of which there was no result. -/
  bounded : ∀ key ∈ completions arity events, within key ∧ key ∉ before.results
  /-- There are the results that were there and those of what has been completed. -/
  stored : ∀ key, key ∈ after.results ↔ key ∈ before.results ∨ key ∈ completions arity events
  /-- No result has changed. -/
  keeps : ∀ (key : Shape) (result : ν), before.results[key]? = some result →
    after.results[key]? = some result
  /-- The results are right. -/
  right : Right arity function after.results

variable {within : Shape → Prop} {before middle after : Remembered (List Event) ν}
  {events more : List Event}

theorem Leads.refl (right : Right arity function before.results) :
    Leads arity function within before before [] where
  noted := (List.append_nil _).symm
  once := List.nodup_nil
  bounded := by simp [completions]
  stored := by simp [completions]
  keeps _ _ := id
  right := right

theorem Leads.trans (first : Leads arity function within before middle events)
    (second : Leads arity function within middle after more) :
    Leads arity function within before after (events ++ more) where
  noted := by rw [second.noted, first.noted, List.append_assoc]
  once := by
    rw [completions_append]
    refine first.once.append second.once fun key completed again => ?_
    exact (second.bounded key again).2 ((first.stored key).mpr (.inr completed))
  bounded key completed := by
    rw [completions_append] at completed
    rcases List.mem_append.mp completed with earlier | later
    · exact first.bounded key earlier
    · obtain ⟨inside, missing⟩ := second.bounded key later
      exact ⟨inside, fun known => missing ((first.stored key).mpr (.inl known))⟩
  stored key := by
    rw [second.stored, first.stored, completions_append, List.mem_append, or_assoc]
  keeps key result found := second.keeps key result (first.keeps key result found)
  right := second.right

theorem Leads.mono {wider : Shape → Prop} (leads : Leads arity function within before after events)
    (weaker : ∀ key, within key → wider key) :
    Leads arity function wider before after events :=
  { leads with
    bounded := fun key completed =>
      ⟨weaker key (leads.bounded key completed).1, (leads.bounded key completed).2⟩ }

/-- It is noted that the function has begun. -/
theorem leads_began (right : Right arity function before.results) (args : List Datum) :
    Leads arity function within before { before with state := before.state ++ [.began args] }
      [.began args] :=
  { Leads.refl right with noted := rfl }

/-- A result is kept under a key that is missing. -/
theorem leads_completed (right : Right arity function before.results)
    (keyed : keyShape? arity args = some key) {result : ν}
    (ended : Ends function (function args) (.ok result)) (missing : key ∉ before.results)
    (inside : within key) :
    Leads arity function within before
      { state := before.state ++ [.completed args], results := before.results.insert key result }
      [.completed args] := by
  have completed : completions arity [.completed args] = [key] := by
    simp [completions, Event.completedKey?, keyed]
  refine ⟨rfl, by simp [completed], ?_, fun other => ?_, fun other found found_eq => ?_, ?_⟩
  · rw [completed]
    rintro _ (_ | ⟨_, ⟨⟩⟩)
    exact ⟨inside, missing⟩
  · rw [completed, Std.HashMap.mem_insert, beq_iff_eq, List.mem_singleton, or_comm, eq_comm]
  · have apart : ¬ (key == other) = true := by
      intro same
      rw [← eq_of_beq same, Std.HashMap.getElem?_eq_none missing] at found_eq
      cases found_eq
    exact (Std.HashMap.getElem?_insert.trans (if_neg apart)).trans found_eq
  · intro other found found_eq
    rw [Std.HashMap.getElem?_insert] at found_eq
    split at found_eq
    · next same =>
        obtain rfl := eq_of_beq same
        obtain rfl := Option.some.inj found_eq
        exact ⟨args, keyed, ended⟩
    · exact right other found found_eq

/-! ## One call -/

/-- What a run comes to: the function's own outcome, and events that lead to another state. -/
def Settles (arity : Arity) (function : List Datum → Course ε ν) (within : Shape → Prop)
    (run : Run ε ν ν) (outcome : Except ε ν) : Prop :=
  ∀ before, Right arity function before.results → ∃ after events,
    run.outcome before = ((settle outcome : Run ε ν ν).outcome after) ∧
      Leads arity function within before after events

/-- A call comes to the function's own outcome. It is answered from the table, and then nothing
happens, or the function begins. -/
def Answers (arity : Arity) (function : List Datum → Course ε ν) (args : List Datum) (key : Shape)
    (run : Run ε ν ν) (outcome : Except ε ν) : Prop :=
  ∀ before, Right arity function before.results → ∃ after events,
    run.outcome before = ((settle outcome : Run ε ν ν).outcome after) ∧
      Leads arity function (Relation.ReflTransGen (Below arity function) · key) before after
        events ∧
      (key ∈ before.results → after = before) ∧
      (key ∉ before.results → ∃ nested, events = .began args :: nested)

theorem Answers.settles {run : Run ε ν ν} (answers : Answers arity function args key run outcome)
    (inside : ∀ lower, Relation.ReflTransGen (Below arity function) lower key → within lower) :
    Settles arity function within run outcome := by
  intro before right
  obtain ⟨after, events, ran, leads, -⟩ := answers before right
  exact ⟨after, events, ran, leads.mono inside⟩

theorem outcome_settle (outcome : Except ε ν) (before : Remembered (List Event) ν) :
    (settle outcome : Run ε ν ν).outcome before =
      (outcome.mapError fun error => .raised (.raised error), before) :=
  ExceptT.outcome_ofExcept _ before

/-- Whatever the function comes to is handed on. -/
theorem outcome_attempt {run : Run ε ν ν}
    (ran : run.outcome before = (settle outcome : Run ε ν ν).outcome after) :
    (attempt run).outcome before = (.ok outcome, after) := by
  rw [outcome_settle] at ran
  rw [attempt, ExceptT.outcome_tryCatch, ExceptT.outcome_bind, ran]
  cases outcome <;> rfl

/-- A course is followed, where calls are answered as they should be, if there are steps enough. -/
theorem settles_follow {run : Nat → List Datum → Run ε ν ν}
    (nested : ∀ other, Calls function course other → ∃ enough outcome,
      Ends function (function other) outcome ∧
        ∀ steps ≥ enough, Settles arity function within (run steps other) outcome) :
    ∃ enough outcome, Ends function course outcome ∧
      ∀ steps ≥ enough, Settles arity function within (follow (run steps) course) outcome := by
  induction course with
  | ends outcome =>
      exact ⟨0, outcome, .ends outcome, fun _ _ before right => ⟨before, [], rfl, .refl right⟩⟩
  | calls args next ih =>
      obtain ⟨first_enough, given, given_ended, first_settles⟩ := nested args .here
      obtain ⟨rest_enough, outcome, rest_ended, rest_settles⟩ :=
        ih given fun other called => nested other (.later given_ended called)
      refine ⟨max first_enough rest_enough, outcome, .calls given_ended rest_ended,
        fun steps enough before right => ?_⟩
      obtain ⟨middle, events, called, first_leads⟩ :=
        first_settles steps (Nat.le_trans (Nat.le_max_left ..) enough) before right
      obtain ⟨after, more, followed, rest_leads⟩ :=
        rest_settles steps (Nat.le_trans (Nat.le_max_right ..) enough) middle first_leads.right
      refine ⟨after, events ++ more, ?_, first_leads.trans rest_leads⟩
      rw [follow, ExceptT.outcome_bind, outcome_attempt called]
      exact followed

theorem callWith_eq (keyed : keyShape? arity args = some key) (body : List Datum → Run ε ν ν) :
    callWith arity body args = remember slot key (body args) := by
  obtain ⟨data, found, data_keyed⟩ := Option.bind_eq_some_iff.mp keyed
  rw [callWith, found]
  cases unkeyable : data.unkeyable? with
  | none =>
      obtain rfl : data.shape = key := by simpa [unkeyable] using data_keyed
      simp only [unkeyable]
  | some reason => simp [unkeyable] at data_keyed

@[simp]
theorem outcome_note (event : Event) (before : Remembered (List Event) ν) :
    (note event : Run ε ν Unit).outcome before =
      (.ok (), { before with state := before.state ++ [event] }) := rfl

/-- A call is answered as it should be if the function's own calls are. -/
theorem Regular.answers (regular : Regular arity function)
    (keyed : keyShape? arity args = some key) (ended : Ends function (function args) outcome)
    {call : List Datum → Run ε ν ν}
    (followed : Settles arity function (Relation.TransGen (Below arity function) · key)
      (follow call (function args)) outcome) :
    Answers arity function args key (callWith arity (runFunction call function) args) outcome := by
  intro before right
  rw [callWith_eq keyed, Registry.outcome_remember]
  cases found : (slot.read before)[key]? with
  | some result =>
      have known : key ∈ before.results := by
        rw [Std.HashMap.mem_iff_isSome_getElem?]
        exact Option.isSome_of_eq_some found
      obtain ⟨other, other_keyed, other_ended⟩ := right key result found
      obtain rfl := ended.unique (regular.agrees other args key other_keyed keyed _ other_ended)
      exact ⟨before, [], rfl, .refl right, fun _ => rfl, fun missing => (missing known).elim⟩
  | none =>
      have missing : key ∉ before.results := by
        rw [Std.HashMap.mem_iff_isSome_getElem?]
        intro known
        exact Option.not_isSome_iff_eq_none.mpr found known
      have began : Leads arity function (Relation.TransGen (Below arity function) · key) before
          { before with state := before.state ++ [.began args] } [.began args] :=
        leads_began right args
      obtain ⟨middle, events, ran, leads⟩ := followed _ began.right
      have leads := began.trans leads
      -- What the function itself called is further down, so there still is no result for the key.
      have still_missing : key ∉ middle.results := by
        intro known
        rcases (leads.stored key).mp known with already | completed
        · exact missing already
        · exact regular.descends.transGen.irrefl.irrefl key (leads.bounded key completed).1
      cases outcome with
      | error error =>
          have failed : (runFunction call function args).Fails before (.raised (.raised error))
              middle :=
            ExceptT.Returns.bind_fails (outcome_note _ _) (ExceptT.Fails.bind ran _)
          rw [failed]
          exact ⟨middle, _, rfl, leads.mono fun _ down => down.to_reflTransGen,
            fun known => (missing known).elim, fun _ => ⟨events, rfl⟩⟩
      | ok result =>
          have returned : (runFunction call function args).Returns before result
              { middle with state := middle.state ++ [.completed args] } :=
            ExceptT.Returns.bind (outcome_note _ _)
              (ExceptT.Returns.bind ran (ExceptT.Returns.bind (outcome_note _ _) rfl))
          rw [returned]
          have kept := (leads.mono fun _ => Relation.TransGen.to_reflTransGen).trans
            (leads_completed leads.right keyed ended still_missing .refl)
          exact ⟨_, _, rfl, kept, fun known => (missing known).elim, fun _ => ⟨_, rfl⟩⟩

/-- Every call that has a key is answered as it should be, if there are steps enough. -/
theorem Regular.answers_callNested (regular : Regular arity function)
    (keyed : keyShape? arity args = some key) :
    ∃ enough outcome, Ends function (function args) outcome ∧ ∀ steps ≥ enough,
      Answers arity function args key (callNested arity function steps args) outcome := by
  induction key using regular.descends.induction generalizing args with
  | _ key ih =>
      have nested (other : List Datum) (called : Calls function (function args) other) :
          ∃ enough outcome, Ends function (function other) outcome ∧ ∀ steps ≥ enough,
            Settles arity function (Relation.TransGen (Below arity function) · key)
              (callNested arity function steps other) outcome := by
        obtain ⟨lower, other_keyed⟩ := Option.isSome_iff_exists.mp
          (regular.keyed args (Option.isSome_of_eq_some keyed) other called)
        have below : Below arity function lower key := ⟨args, other, keyed, called, other_keyed⟩
        obtain ⟨enough, outcome, ended, answers⟩ := ih lower below other_keyed
        exact ⟨enough, outcome, ended, fun steps many =>
          (answers steps many).settles fun _ down => .tail' down below⟩
      obtain ⟨enough, outcome, ended, followed⟩ := settles_follow nested
      refine ⟨enough + 1, outcome, ended, fun steps many => ?_⟩
      obtain ⟨fewer, rfl⟩ := Nat.exists_eq_add_of_le' (Nat.le_of_add_left_le many)
      exact regular.answers keyed ended (followed fewer (by omega))

/-! ## Many calls -/

/-- The call is answered as it should be. -/
def IsAnswered (arity : Arity) (function : List Datum → Course ε ν)
    (call : List Datum → Run ε ν ν) (args : List Datum) : Prop :=
  ∃ key outcome, keyShape? arity args = some key ∧ Ends function (function args) outcome ∧
    Answers arity function args key (call args) outcome

/-- An outcome is that of the function without a table. -/
def IsPlain (function : List Datum → Course ε ν) (args : List Datum)
    (outcome : Except (Failure (Interruption ε)) ν) : Prop :=
  ∃ plain, Ends function (function args) plain ∧
    outcome = plain.mapError fun error => .raised (.raised error)

variable {call : List Datum → Run ε ν ν} {calls : List (List Datum)}

theorem eq_of_forall₂_isPlain {plains : List (Except ε ν)}
    {outcomes : List (Except (Failure (Interruption ε)) ν)}
    (plain : List.Forall₂ (IsPlain function) calls outcomes)
    (ended : List.Forall₂ (fun args => Ends function (function args)) calls plains) :
    outcomes = plains.map fun plain => plain.mapError fun error => .raised (.raised error) := by
  induction plain generalizing plains with
  | nil =>
      cases ended
      rfl
  | cons first _ ih =>
      obtain ⟨other, other_ended, rfl⟩ := first
      cases ended with
      | cons first_ended rest_ended =>
          rw [other_ended.unique first_ended, ih rest_ended]
          rfl

theorem Regular.exists_enough (regular : Regular arity function)
    (keyed : ∀ args ∈ calls, (keyShape? arity args).isSome) :
    ∃ enough, ∀ steps ≥ enough, ∀ args ∈ calls,
      IsAnswered arity function (callNested arity function steps) args := by
  induction calls with
  | nil => exact ⟨0, fun _ _ _ mem => by cases mem⟩
  | cons first rest ih =>
      obtain ⟨key, first_keyed⟩ := Option.isSome_iff_exists.mp (keyed first (List.mem_cons_self ..))
      obtain ⟨first_enough, outcome, ended, answers⟩ := regular.answers_callNested first_keyed
      obtain ⟨rest_enough, rest_answered⟩ :=
        ih fun args mem => keyed args (List.mem_cons_of_mem _ mem)
      refine ⟨max first_enough rest_enough, fun steps many args mem => ?_⟩
      rcases List.mem_cons.mp mem with rfl | mem
      · exact ⟨key, outcome, first_keyed, ended,
          answers steps (Nat.le_trans (Nat.le_max_left ..) many)⟩
      · exact rest_answered steps (Nat.le_trans (Nat.le_max_right ..) many) args mem

theorem callAll_cons (call : List Datum → Run ε ν ν) (args : List Datum) (calls : List (List Datum))
    (before : Remembered (List Event) ν) :
    (callAll call (args :: calls)).run before =
      let (outcome, middle) := (call args).outcome before
      let (outcomes, after) := (callAll call calls).run middle
      (outcome :: outcomes, after) := by
  rw [callAll, List.mapM_cons]
  rfl

theorem callAll_concat (call : List Datum → Run ε ν ν) (calls : List (List Datum))
    (args : List Datum) (before : Remembered (List Event) ν) :
    ((callAll call (calls ++ [args])).run before).2 =
      ((call args).outcome ((callAll call calls).run before).2).2 := by
  rw [callAll, List.mapM_append]
  rfl

/-- All calls come to what they come to without a table. -/
theorem leads_callAll (answered : ∀ args ∈ calls, IsAnswered arity function call args)
    (right : Right arity function before.results) :
    ∃ events,
      Leads arity function (fun _ => True) before ((callAll call calls).run before).2 events ∧
        List.Forall₂ (IsPlain function) calls ((callAll call calls).run before).1 := by
  induction calls generalizing before with
  | nil => exact ⟨[], .refl right, .nil⟩
  | cons args calls ih =>
      obtain ⟨key, outcome, -, ended, answers⟩ := answered args (List.mem_cons_self ..)
      obtain ⟨middle, events, ran, leads, -⟩ := answers before right
      obtain ⟨more, rest_leads, plain⟩ :=
        ih (fun other mem => answered other (List.mem_cons_of_mem _ mem)) leads.right
      rw [outcome_settle] at ran
      rw [callAll_cons, ran]
      exact ⟨events ++ more, (leads.mono fun _ _ => trivial).trans rest_leads,
        .cons ⟨outcome, ended, rfl⟩ plain⟩

/-- If equal keys have equal outcomes, no result is there for a call that fails. -/
theorem Regular.not_mem_of_error (regular : Regular arity function) {error : ε}
    (right : Right arity function before.results) (keyed : keyShape? arity args = some key)
    (ended : Ends function (function args) (.error error)) : key ∉ before.results := by
  intro known
  obtain ⟨result, found⟩ :=
    Option.isSome_iff_exists.mp (Std.HashMap.mem_iff_isSome_getElem?.mp known)
  obtain ⟨other, other_keyed, other_ended⟩ := right key result found
  cases ended.unique (regular.agrees other args key other_keyed keyed _ other_ended)

theorem right_start (arity : Arity) (function : List Datum → Course ε ν) :
    Right arity function (start [] : Remembered (List Event) ν).results :=
  fun _ _ found => by simp [start] at found

/--
Calls that have keys are made one after another, of a function that calls itself further down and
whose outcome depends on the key only. Given steps enough, every call comes to what the function
comes to without a table. At any time the function has been completed at most once for every key,
the keys that are remembered are those for which it has been completed, with the right results, and
nothing is remembered for calls that fail. A call with a key that is remembered does nothing, and
otherwise the function begins; no result gets lost. So for a call that fails the function begins
each time the call is made.
-/
theorem remembering_is_transparent (regular : Regular arity function)
    (keyed : ∀ args ∈ calls, (keyShape? arity args).isSome) :
    ∃ enough, ∀ steps ≥ enough,
      let made := fun calls => (callAll (callNested arity function steps) calls).run (start [])
      (∀ first, first <+: calls →
        List.Forall₂ (IsPlain function) first (made first).1 ∧
          (completions arity (made first).2.state).Nodup ∧
          (∀ key, key ∈ (made first).2.results ↔ key ∈ completions arity (made first).2.state) ∧
          Right arity function (made first).2.results ∧
          ∀ args key error, keyShape? arity args = some key →
            Ends function (function args) (.error error) → key ∉ (made first).2.results) ∧
      ∀ earlier args later key, calls = earlier ++ args :: later → keyShape? arity args = some key →
        let before := (made earlier).2
        let after := (made (earlier ++ [args])).2
        (key ∈ before.results → after = before) ∧
          (key ∉ before.results → ∃ nested, after.state = before.state ++ .began args :: nested) ∧
          ∀ (other : Shape) (result : ν), before.results[other]? = some result →
            after.results[other]? = some result := by
  obtain ⟨enough, answered⟩ := regular.exists_enough keyed
  refine ⟨enough, fun steps many => ?_⟩
  intro made
  have led (first : List (List Datum)) (is_first : first <+: calls) := leads_callAll
    (fun args mem => answered steps many args (is_first.subset mem)) (right_start arity function)
  constructor
  · intro first is_first
    obtain ⟨events, leads, plain⟩ := led first is_first
    have noted : (made first).2.state = events := leads.noted
    rw [noted]
    refine ⟨plain, leads.once, fun key => (leads.stored key).trans ?_, leads.right,
      fun args key error => regular.not_mem_of_error leads.right⟩
    exact or_iff_right Std.HashMap.not_mem_empty
  · rintro earlier args later key rfl args_keyed before after
    obtain ⟨events, leads, -⟩ := led earlier (List.prefix_append _ _)
    obtain ⟨_, outcome, key_eq, ended, answers⟩ := answered steps many args (by simp)
    obtain rfl := Option.some.inj (key_eq.symm.trans args_keyed)
    obtain ⟨now, nested, ran, call_leads, nothing, began⟩ := answers before leads.right
    have after_eq : after = now := by
      rw [outcome_settle] at ran
      exact (callAll_concat _ earlier args (start [])).trans (congrArg Prod.snd ran)
    rw [after_eq]
    refine ⟨nothing, fun missing => ?_, call_leads.keeps⟩
    obtain ⟨more, rfl⟩ := began missing
    exact ⟨more, call_leads.noted⟩

end

/-- A function that fails for 1, after it has called itself for 0, and has the result 7 for all
other arguments. -/
def failingForOne (args : List Datum) : Course String Nat :=
  if args.map Datum.shape = [.leaf (.int 1)] then
    .calls [.literal (.int 0)] fun _ => .ends (.error "refused")
  else .ends (.ok 7)

theorem keyShape?_one_eq_some_iff {args : List Datum} {key : Shape} :
    keyShape? .one args = some key ↔
      args.map Datum.shape = [key] ∧ ∃ arg, args = [arg] ∧ arg.unkeyable? = none := by
  match args with
  | [] | _ :: _ :: _ => simp [keyShape?, key?]
  | [arg] => cases unkeyable : arg.unkeyable? <;> simp [keyShape?, key?, unkeyable]

theorem regular_failingForOne : Regular .one failingForOne := by
  have called {args other : List Datum} (calls : Calls failingForOne (failingForOne args) other) :
      args.map Datum.shape = [.leaf (.int 1)] ∧ other = [.literal (.int 0)] := by
    rw [failingForOne] at calls
    split at calls
    · next one =>
        cases calls with
        | here => exact ⟨one, rfl⟩
        | later _ rest => cases rest
    · cases calls
  refine ⟨fun args _ other calls => ?_, ?_, fun args other key keyed other_keyed outcome => ?_⟩
  · rw [(called calls).2]
    decide
  · have down : Subrelation (Below .one failingForOne)
        (InvImage (· < ·) fun key => if key = .leaf (.int 1) then 1 else 0) := by
      rintro lower key ⟨args, other, keyed, calls, other_keyed⟩
      obtain ⟨one, rfl⟩ := called calls
      obtain rfl : Shape.leaf (.int 0) = lower := Option.some.inj other_keyed
      obtain rfl : Shape.leaf (.int 1) = key := by
        simpa [one] using (keyShape?_one_eq_some_iff.mp keyed).1
      simp [InvImage]
    exact down.wf (InvImage.wf _ wellFounded_lt)
  · rw [failingForOne, failingForOne, (keyShape?_one_eq_some_iff.mp keyed).1,
      (keyShape?_one_eq_some_iff.mp other_keyed).1]
    exact id

/-- A call for 1 fails, and so does one for the truth value that equals it; the nested call for 0 is
completed once. -/
theorem failingForOne_called_three_times :
    let calls : List (List Datum) :=
      [[.literal (.int 1)], [.literal (.bool true)], [.literal (.int 0)]]
    Regular .one failingForOne ∧ (∀ args ∈ calls, (keyShape? .one args).isSome) ∧
      ∃ enough, ∀ steps ≥ enough,
        let made := (callAll (callNested .one failingForOne steps) calls).run (start [])
        made.1 = [.error (.raised (.raised "refused")), .error (.raised (.raised "refused")),
          .ok 7] ∧ (completions .one made.2.state).Nodup := by
  intro calls
  have keyed : ∀ args ∈ calls, (keyShape? .one args).isSome := by
    simp only [calls, List.forall_mem_cons]
    decide
  obtain ⟨enough, transparent⟩ := remembering_is_transparent regular_failingForOne keyed
  refine ⟨regular_failingForOne, keyed, enough, fun steps many => ?_⟩
  obtain ⟨plain, once, -⟩ := (transparent steps many).1 calls (List.prefix_refl _)
  have zero_ended : Ends failingForOne (failingForOne [.literal (.int 0)]) (.ok 7) := .ends _
  have one_ended : Ends failingForOne (failingForOne [.literal (.int 1)]) (.error "refused") :=
    .calls zero_ended (.ends _)
  have true_ended : Ends failingForOne (failingForOne [.literal (.bool true)]) (.error "refused") :=
    one_ended
  exact ⟨eq_of_forall₂_isPlain plain (.cons one_ended (.cons true_ended (.cons zero_ended .nil))),
    once⟩

end Remembered
end Memo
end Combinatory
