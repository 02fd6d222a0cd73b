import Combinatory.Proofs.Lambda.Caching
import Combinatory.Proofs.Lambda.Settling

/-!
# Work that follows a draft

Work in a session follows a draft if it ends as the draft does, where the answers are what the
combinators settle to. The session has other numbers for variables, and it keeps terms, which spares
it work, but they are the terms that the combinators settle to.
-/

namespace Combinatory
namespace Lambda

/-! ## Variables of a session -/

/-- An object in which there is nothing foreign stands for the expression that it is. -/
theorem stands_of_expr? {object : Object} {expr : Open Empty} (found : object.expr? = some expr) :
    Stands id object expr := by
  induction object generalizing expr with
  | term value =>
      cases found
      exact .term value
  | var x =>
      cases found
      exact .var x
  | app serial fn arg fn_ih arg_ih =>
      obtain ⟨fnExpr, fn_found, found⟩ := Option.bind_eq_some_iff.mp found
      obtain ⟨argExpr, arg_found, same⟩ := Option.bind_eq_some_iff.mp found
      cases same
      exact .app (fn_ih fn_found) (arg_ih arg_found)
  | foreign value => cases found

/-- Which variables of the session stand for the variables of a draft, that is, for those with the
serial numbers that have been drawn. The variables that have been there from the start stand for
themselves. -/
structure World (start : Nat) where
  /-- The serial number in the session. -/
  serial : Nat → Nat
  /-- The next serial number of the draft that has not been drawn. -/
  count : Nat
  /-- The serial numbers before the start are not drawn. -/
  start_le : start ≤ count
  /-- The variables from before the start stand for themselves. -/
  fixed : ∀ old < start, serial old = old

namespace World

/-- The world in which no serial numbers have been drawn. -/
def empty (start : Nat) : World start where
  serial := id
  count := start
  start_le := Nat.le_refl start
  fixed _ _ := rfl

variable {start : Nat}

/-- The variable of the session. -/
def var (world : World start) (x : Var) : Var where
  serial := world.serial x.serial
  name := x.name

/-- More serial numbers have been drawn. -/
structure Grows (before after : World start) : Prop where
  /-- None is given back. -/
  count_le : before.count ≤ after.count
  /-- Variables stand for what they stood for. -/
  agree : ∀ serial < before.count, after.serial serial = before.serial serial

/-- Different variables stand for different ones, and no new variable will be one of these. -/
structure Fits (world : World start) (bench : Workbench) : Prop where
  /-- The serial numbers are used up in the session. -/
  used : ∀ serial < world.count, world.serial serial < bench.nextSerial
  /-- Different serial numbers stand for different ones. -/
  apart : ∀ first < world.count, ∀ second < world.count,
    world.serial first = world.serial second → first = second

/-- The object is the expression, which has only variables that have been drawn. -/
structure Placed (world : World start) (object : Object) (expr : Open Empty) : Prop where
  /-- The object is the expression. -/
  stands : Stands world.var object expr
  /-- The variables have been drawn. -/
  drawn : ∀ x, expr.Mentions x → x.serial < world.count

variable {before middle after world : World start} {bench : Workbench}

theorem Grows.refl (world : World start) : world.Grows world where
  count_le := Nat.le_refl _
  agree _ _ := rfl

theorem Grows.trans (first : before.Grows middle) (second : middle.Grows after) :
    before.Grows after where
  count_le := Nat.le_trans first.count_le second.count_le
  agree serial drawn :=
    (second.agree serial (Nat.lt_of_lt_of_le drawn first.count_le)).trans (first.agree serial drawn)

theorem fits_empty (start_le : start ≤ bench.nextSerial) : (empty start).Fits bench where
  used _ old := Nat.lt_of_lt_of_le old start_le
  apart _ _ _ _ := id

theorem Fits.later {later : Workbench} (fits : world.Fits bench)
    (serial_le : bench.nextSerial ≤ later.nextSerial) : world.Fits later where
  used serial drawn := Nat.lt_of_lt_of_le (fits.used serial drawn) serial_le
  apart := fits.apart

/-- Different variables that have been drawn stand for different ones. -/
theorem Fits.var_injective (fits : world.Fits bench) {x y : Var} (x_drawn : x.serial < world.count)
    (y_drawn : y.serial < world.count) (same : world.var x = world.var y) : x = y := by
  obtain ⟨x_serial, x_name⟩ := x
  obtain ⟨y_serial, y_name⟩ := y
  obtain ⟨serials_same, rfl⟩ := Var.mk.inj same
  obtain rfl := fits.apart x_serial x_drawn y_serial y_drawn serials_same
  rfl

theorem Placed.grows {object : Object} {expr : Open Empty} (placed : before.Placed object expr)
    (grows : before.Grows after) : after.Placed object expr where
  stands := placed.stands.congr fun x occurs => by
    rw [var, var, grows.agree x.serial (placed.drawn x occurs)]
  drawn x occurs := Nat.lt_of_lt_of_le (placed.drawn x occurs) grows.count_le

theorem placed_term (value : TypedTerm) : world.Placed (.term value) (.term value) where
  stands := .term value
  drawn _ := False.elim

theorem placed_var {x : Var} (drawn : x.serial < world.count) :
    world.Placed (.var (world.var x)) (.var x) where
  stands := .var x
  drawn y occurs := by
    obtain rfl : x = y := occurs
    exact drawn

/-- An expression whose variables have been there from the start stands for itself. -/
theorem placed_old {object : Object} {expr : Open Empty} (found : object.expr? = some expr)
    (old : ∀ x, expr.Mentions x → x.serial < start) : world.Placed object expr where
  stands := (stands_of_expr? found).congr fun x occurs => by
    rw [var, world.fixed x.serial (old x occurs)]
    rfl
  drawn x occurs := Nat.lt_of_lt_of_le (old x occurs) world.start_le

/-- One more variable of the session that stands for the next one of the draft. -/
def drawing (world : World start) (serial : Nat) : World start where
  serial := Function.update world.serial world.count serial
  count := world.count + 1
  start_le := Nat.le_succ_of_le world.start_le
  fixed old old_lt := by
    rw [Function.update_of_ne (Nat.ne_of_lt (Nat.lt_of_lt_of_le old_lt world.start_le)),
      world.fixed old old_lt]

theorem grows_drawing (world : World start) (serial : Nat) :
    world.Grows (world.drawing serial) where
  count_le := Nat.le_succ _
  agree _ drawn := Function.update_of_ne (Nat.ne_of_lt drawn) _ _

theorem Fits.drawing (fits : world.Fits bench) :
    (world.drawing bench.nextSerial).Fits { bench with nextSerial := bench.nextSerial + 1 } where
  used serial drawn := by
    rcases Nat.lt_succ_iff_lt_or_eq.mp drawn with old | rfl
    · rw [(world.grows_drawing _).agree serial old]
      exact Nat.lt_succ_of_lt (fits.used serial old)
    · simp [World.drawing]
  apart first first_drawn second second_drawn same := by
    have new_eq : (world.drawing bench.nextSerial).serial world.count = bench.nextSerial := by
      simp [World.drawing]
    have old_eq (serial : Nat) (old : serial < world.count) :=
      (world.grows_drawing bench.nextSerial).agree serial old
    rcases Nat.lt_succ_iff_lt_or_eq.mp first_drawn with first_old | rfl
    · rcases Nat.lt_succ_iff_lt_or_eq.mp second_drawn with second_old | rfl
      · rw [old_eq first first_old, old_eq second second_old] at same
        exact fits.apart first first_old second second_old same
      · rw [old_eq first first_old, new_eq] at same
        exact absurd same (Nat.ne_of_lt (fits.used first first_old))
    · rcases Nat.lt_succ_iff_lt_or_eq.mp second_drawn with second_old | rfl
      · rw [new_eq, old_eq second second_old] at same
        exact absurd same.symm (Nat.ne_of_lt (fits.used second second_old))
      · rfl

end World

/-! ## States of a session -/

namespace Workbench

/-- The combinators whose terms are kept. -/
def kept (bench : Workbench) : Finset Nat :=
  {number ∈ Finset.range bench.combinators.size |
    ((bench.combinators[number]?).bind Combinator.term?).isSome}

/-- The session has the named objects and the combinators of the book, of which those that are not
listed are being compiled, and keeps for no combinator another term than the one to which it settles
without those whose terms are not kept. -/
structure Stage (book : Workbench) (idle : Finset Nat) (bench : Workbench) : Prop where
  /-- The registry is sound. -/
  sound : bench.terms.Sound
  /-- The named objects are the same. -/
  session_eq : bench.session = book.session
  /-- Serial numbers are not used again. -/
  serial_le : book.nextSerial ≤ bench.nextSerial
  /-- There are the same combinators. -/
  combinator : ∀ {number : Nat} {combinator : Combinator},
    book.combinators[number]? = some combinator → ∃ other,
      bench.combinators[number]? = some other ∧ other.source = combinator.source ∧
        other.name? = combinator.name? ∧ (other.compiling = false ↔ number ∈ idle)
  /-- There are no other ones. -/
  absent : ∀ {number : Nat}, book.combinators[number]? = none → bench.combinators[number]? = none
  /-- No combinator with a term is being compiled. -/
  kept_idle : bench.kept ⊆ idle
  /-- The terms are those to which the combinators settle. -/
  right : ∀ {number : Nat} {value : TypedTerm}, bench.Caches number value →
    book.settle bench.kept number = .ok value

/-- Serial numbers are not used again, and terms that are kept stay. -/
structure Onward (before after : Workbench) : Prop where
  /-- Serial numbers are not used again. -/
  serial_le : before.nextSerial ≤ after.nextSerial
  /-- Terms that are kept stay. -/
  keeps : ∀ {number : Nat} {value : TypedTerm}, before.Caches number value →
    after.Caches number value

/-- Of the combinators to which asking for the terms comes, those that have terms keep them. -/
def Retains (book : Workbench) (idle : Finset Nat) (asked : List Nat) (after : Workbench) : Prop :=
  ∀ number ∈ asked, ∀ inner last, book.Visits idle number inner last →
    ∀ value, book.settle inner last = .ok value → after.Caches last value

variable {book bench before middle after : Workbench} {idle : Finset Nat} {number : Nat}
  {value : TypedTerm}

theorem retains_nil : book.Retains idle [] after :=
  fun _ mem => nomatch mem

theorem mem_kept_iff : number ∈ bench.kept ↔ ∃ value, bench.Caches number value := by
  simp only [kept, Finset.mem_filter, Finset.mem_range, Option.isSome_iff_exists,
    Option.bind_eq_some_iff, Caches]
  constructor
  · rintro ⟨-, value, combinator, found, kept⟩
    exact ⟨value, combinator, found, kept⟩
  · rintro ⟨value, combinator, found, kept⟩
    exact ⟨(Array.getElem?_eq_some_iff.mp found).1, value, combinator, found, kept⟩

theorem Onward.refl (bench : Workbench) : bench.Onward bench where
  serial_le := Nat.le_refl _
  keeps := id

theorem Onward.trans (first : before.Onward middle) (second : middle.Onward after) :
    before.Onward after where
  serial_le := Nat.le_trans first.serial_le second.serial_le
  keeps caches := second.keeps (first.keeps caches)

theorem Retains.append {first second : List Nat} (first_retains : book.Retains idle first middle)
    (onward : middle.Onward after) (second_retains : book.Retains idle second after) :
    book.Retains idle (first ++ second) after := by
  intro number mem inner last visits value settled
  rcases List.mem_append.mp mem with first_mem | second_mem
  · exact onward.keeps (first_retains number first_mem inner last visits value settled)
  · exact second_retains number second_mem inner last visits value settled

theorem Advances.onward (advances : before.Advances after) : before.Onward after where
  serial_le := advances.serial_le
  keeps := by
    rintro number value ⟨combinator, found, kept⟩
    exact ⟨combinator, by rw [advances.combinators_eq, found], kept⟩

theorem Stage.advances (stage : book.Stage idle before) (advances : before.Advances after) :
    book.Stage idle after := by
  have kept_eq : after.kept = before.kept := by
    rw [kept, kept, advances.combinators_eq]
  constructor
  · exact advances.sound stage.sound
  · exact advances.session_eq.trans stage.session_eq
  · exact Nat.le_trans stage.serial_le advances.serial_le
  · rw [advances.combinators_eq]
    exact stage.combinator
  · rw [advances.combinators_eq]
    exact stage.absent
  · rw [kept_eq]
    exact stage.kept_idle
  · rintro number value ⟨combinator, found, combinator_kept⟩
    rw [advances.combinators_eq] at found
    rw [kept_eq]
    exact stage.right ⟨combinator, found, combinator_kept⟩

/-- A term that is kept is the one to which the combinator settles. -/
theorem Stage.settle_of_caches (stage : book.Stage idle bench)
    (caches : bench.Caches number value) : book.settle idle number = .ok value :=
  settle_mono stage.kept_idle (stage.right caches)

end Workbench

/-! ## Following a draft -/

section Follows

variable {α β γ δ : Type} {book : Workbench} {idle : Finset Nat} {start : Nat}
  {world : World start} {R S : World start → α → β → Prop} {Q : World start → γ → δ → Prop}

/-- The work returns something related to the result, with all variables standing for others that
have been drawn, or it fails for the same reason. -/
def EndsBy (world : World start) (R : World start → α → β → Prop) (work : Work α)
    (before after : Workbench) : Except Failure (β × Nat) → Prop
  | .ok (expected, count) => ∃ result later, work.Returns before result after ∧
      world.Grows later ∧ later.count = count ∧ later.Fits after ∧ R later result expected
  | .error failure => work.Fails before (.raised failure) after

/-- From a state of the session the work ends as the draft does, and the terms that are found on the
way are kept. -/
def Follows (book : Workbench) (idle : Finset Nat) (world : World start)
    (R : World start → α → β → Prop) (work : Work α) (draft : Draft β) : Prop :=
  ∀ before, book.Stage idle before → world.Fits before → ∃ after, book.Stage idle after ∧
    before.Onward after ∧
      book.Retains idle (draft.asked (book.settle idle) world.count) after ∧
        EndsBy world R work before after (draft.run (book.settle idle) world.count)

theorem Follows.pure {result : α} {expected : β} (related : R world result expected) :
    Follows book idle world R (pure result) (.done expected) :=
  fun before stage fits => ⟨before, stage, .refl before, Workbench.retains_nil,
    result, world, rfl, .refl world, rfl, fits, related⟩

theorem Follows.raise (failure : Failure) :
    Follows book idle world R (Effect.raise failure) (.failed failure) :=
  fun before stage _ => ⟨before, stage, .refl before, Workbench.retains_nil, rfl⟩

theorem Follows.bind {work : Work α} {draft : Draft β} {next : α → Work γ} {further : β → Draft δ}
    (first : Follows book idle world R work draft)
    (second : ∀ later result expected, world.Grows later → R later result expected →
      Follows book idle later Q (next result) (further expected)) :
    Follows book idle world Q (work >>= next) (draft >>= further) := by
  intro before stage fits
  obtain ⟨middle, middle_stage, onward, retains, ended⟩ := first before stage fits
  simp only [Draft.asked_bind, Draft.run_bind]
  cases ran : draft.run (book.settle idle) world.count with
  | error failure =>
      rw [ran] at ended
      refine ⟨middle, middle_stage, onward, ?_, ExceptT.Fails.bind ended next⟩
      simp only [List.append_nil]
      exact retains
  | ok pair =>
      obtain ⟨expected, count⟩ := pair
      rw [ran] at ended
      obtain ⟨result, later, returned, grows, rfl, later_fits, related⟩ := ended
      obtain ⟨after, after_stage, further_onward, further_retains, further_ended⟩ :=
        second later result expected grows related middle middle_stage later_fits
      refine ⟨after, after_stage, onward.trans further_onward, ?_, ?_⟩
      · exact retains.append further_onward further_retains
      · dsimp only
        cases further_ran : (further expected).run (book.settle idle) later.count with
        | error failure =>
            rw [further_ran] at further_ended
            exact returned.bind_fails further_ended
        | ok pair =>
            rw [further_ran] at further_ended
            obtain ⟨last, latest, last_returned, latest_grows, same, latest_fits, last_related⟩ :=
              further_ended
            exact ⟨last, latest, returned.bind last_returned, grows.trans latest_grows, same,
              latest_fits, last_related⟩

theorem Follows.imp {work : Work α} {draft : Draft β}
    (follows : Follows book idle world R work draft)
    (weaker : ∀ later result expected, R later result expected → S later result expected) :
    Follows book idle world S work draft := by
  intro before stage fits
  obtain ⟨after, after_stage, onward, retains, ended⟩ := follows before stage fits
  refine ⟨after, after_stage, onward, retains, ?_⟩
  cases ran : draft.run (book.settle idle) world.count with
  | error failure =>
      rw [ran] at ended
      exact ended
  | ok pair =>
      rw [ran] at ended
      obtain ⟨result, later, returned, grows, same, later_fits, related⟩ := ended
      exact ⟨result, later, returned, grows, same, later_fits, weaker _ _ _ related⟩

/-- Work that does what a computation on expressions does follows it as a draft. -/
theorem Follows.of_copies {R : α → β → Prop} {work : Work α}
    {computation : Except (IllTyped Term) β}
    (copies : ∀ before, world.Fits before → Copies R work before computation) :
    Follows book idle world
      (fun later result expected => later = world ∧ computation = .ok expected ∧ R result expected)
      work (Draft.ofExcept computation) := by
  intro before stage fits
  obtain ⟨after, advances, ended⟩ := copies before fits stage.sound
  refine ⟨after, stage.advances advances, advances.onward, ?_⟩
  cases computation with
  | error refusal => exact ⟨Workbench.retains_nil, ended⟩
  | ok expected =>
      obtain ⟨result, returned, related⟩ := ended
      exact ⟨Workbench.retains_nil, result, world, returned, .refl world, rfl,
        fits.later advances.serial_le, rfl, rfl, related⟩

/-- Work that does more than the draft where that does not matter. -/
theorem Follows.after {work : Work γ} {next : γ → Work α} {draft : Draft β}
    (first : ∀ before, Copies (fun _ _ => True) work before (.ok ()))
    (rest : ∀ value, Follows book idle world R (next value) draft) :
    Follows book idle world R (work >>= next) draft := by
  have followed : Follows book idle world _ work (Draft.ofExcept (.ok ())) :=
    .of_copies fun before _ => first before
  have continued : Follows book idle world R (work >>= next)
      (Draft.ofExcept (.ok ()) >>= fun _ => draft) := by
    refine followed.bind fun later value _ _ same => ?_
    obtain ⟨rfl, -⟩ := same
    exact rest value
  exact continued

end Follows

end Lambda
end Combinatory
