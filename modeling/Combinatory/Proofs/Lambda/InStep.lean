import Combinatory.Lambda.Session
import Combinatory.Proofs.Lambda.Alike
import Combinatory.Proofs.Lambda.Asking
import Combinatory.Proofs.Lambda.Simulation

/-!
# Sessions in step

Two sessions are in step if they have the same registry, draw the same serial number next and have
twins for named objects and combinators. Whatever is done alike in both of them ends alike, with
twins for results, and leaves the sessions in step. Names decide about nothing but texts, so nothing
but texts may differ.
-/

namespace Combinatory
namespace Lambda

/-! ## Sessions -/

/-- Variables that stand for each other have the same serial number, and no other ones have it. -/
structure Pairing.Apart (pairs : Pairing) : Prop where
  /-- They have the same serial number. -/
  serial_eq : ∀ {x y : Var}, pairs x y → y.serial = x.serial
  /-- No others have it. -/
  unique : ∀ {x y z w : Var}, pairs x y → pairs z w → x.serial = z.serial → x = z ∧ y = w

/-- The pairing with one pair more. -/
def Pairing.adding (pairs : Pairing) (x y : Var) : Pairing :=
  fun z w => pairs z w ∨ z = x ∧ w = y

/-- The two combinators wrap twins and are otherwise the same. -/
structure TwinCombinator (pairs : Pairing) (combinator other : Combinator) : Prop where
  /-- They wrap twins. -/
  source : Twin pairs combinator.source other.source
  /-- They have the same name, if any. -/
  name_eq : other.name? = combinator.name?
  /-- Both or neither are being compiled. -/
  compiling_eq : other.compiling = combinator.compiling
  /-- They keep the same term, if any. -/
  term_eq : other.term? = combinator.term?

/-- The two sessions differ in the names of variables and parameters and in the log only. -/
structure Workbench.InStep (pairs : Pairing) (bench other : Workbench) : Prop where
  /-- They draw the same serial number next. -/
  serial_eq : other.nextSerial = bench.nextSerial
  /-- They have the same registry. -/
  terms_eq : other.terms = bench.terms
  /-- They have as many combinators. -/
  size_eq : other.combinators.size = bench.combinators.size
  /-- The combinators wrap twins. -/
  combinators : ∀ number : Nat,
    Option.Rel (TwinCombinator pairs) bench.combinators[number]? other.combinators[number]?
  /-- The same names are bound to twins. -/
  session : TwinScope pairs (bench.session.map fun entry => (entry.1, entry.1)) bench.session
    other.session
  /-- Variables are told apart by their serial numbers. -/
  apart : pairs.Apart
  /-- These have been drawn. -/
  drawn : ∀ {x y : Var}, pairs x y → x.serial < bench.nextSerial

/-- The two failures differ in texts, or in objects that are twins. -/
def Failure.Alike (pairs : Pairing) : Failure → Failure → Prop
  | notConvertible _, notConvertible _ => True
  | unsupportedSignature _, unsupportedSignature _ => True
  | notWrappable _, notWrappable _ => True
  | unbound _, unbound _ => True
  | notAVariable object, notAVariable other => Twin pairs object other
  | notAnExpression value, notAnExpression other => TwinExtra pairs value other
  | failure, other => failure = other

/-- Work in two sessions that ends in results that are related, or fails alike, and leaves the
sessions in step. -/
inductive EndAlike {α β : Type} (pairs : Pairing) (R : Pairing → α → β → Prop) :
    Except (Interruption Failure) α × Workbench → Except (Interruption Failure) β × Workbench → Prop
  /-- Both return. -/
  | returned {more : Pairing} {result : α} {counterpart : β} {after other : Workbench}
      (within : pairs.Within more) (in_step : after.InStep more other)
      (related : R more result counterpart) :
      EndAlike pairs R (.ok result, after) (.ok counterpart, other)
  /-- Both raise an error. -/
  | raised {more : Pairing} {failure counterpart : Failure} {after other : Workbench}
      (within : pairs.Within more) (in_step : after.InStep more other)
      (alike : failure.Alike more counterpart) :
      EndAlike pairs R (.error (.raised failure), after) (.error (.raised counterpart), other)
  /-- Neither ends within the steps granted. -/
  | unfinished {more : Pairing} {after other : Workbench} (within : pairs.Within more)
      (in_step : after.InStep more other) :
      EndAlike pairs R (.error .unfinished, after) (.error .unfinished, other)

/-- From sessions in step the two work items end alike. -/
def StaysInStep {α β : Type} (pairs : Pairing) (R : Pairing → α → β → Prop) (work : Work α)
    (other : Work β) : Prop :=
  ∀ bench counterpart, bench.InStep pairs counterpart →
    EndAlike pairs R (work.outcome bench) (other.outcome counterpart)

/-- What is related remains so when more variables are paired. -/
def Persistent {α β : Type} (R : Pairing → α → β → Prop) : Prop :=
  ∀ pairs more result counterpart, pairs.Within more → R pairs result counterpart →
    R more result counterpart

theorem Pairing.Within.refl (pairs : Pairing) : pairs.Within pairs :=
  fun _ _ => id

theorem Pairing.Within.trans {pairs more most : Pairing} (first : pairs.Within more)
    (second : more.Within most) : pairs.Within most :=
  fun x y paired => second x y (first x y paired)

theorem persistent_twinExpr : Persistent TwinExpr :=
  fun _ _ _ _ within twins => twins.within within

theorem persistent_twin : Persistent Twin :=
  fun _ _ _ _ within twins => twins.within within

theorem persistent_paired : Persistent fun pairs : Pairing => pairs :=
  fun _ _ _ _ within paired => within _ _ paired

theorem TwinCombinator.within {pairs more : Pairing} {combinator other : Combinator}
    (twins : TwinCombinator pairs combinator other) (within : pairs.Within more) :
    TwinCombinator more combinator other :=
  { twins with source := twins.source.within within }

/-- Variables that stand for each other are the same ones as others if their counterparts are. -/
theorem Pairing.Apart.eq_iff {pairs : Pairing} (apart : pairs.Apart) {x y z w : Var}
    (first : pairs x y) (second : pairs z w) : y = w ↔ x = z := by
  constructor
  · rintro rfl
    exact (apart.unique first second ((apart.serial_eq first).symm.trans
      (apart.serial_eq second))).1
  · rintro rfl
    exact (apart.unique first second rfl).2

/-! ## Work in step -/

section Rules

variable {α β γ δ : Type} {pairs : Pairing} {R S : Pairing → α → β → Prop}
  {Q : Pairing → γ → δ → Prop}

theorem EndAlike.after {more : Pairing} {ended : Except (Interruption Failure) α × Workbench}
    {other : Except (Interruption Failure) β × Workbench} (alike : EndAlike more R ended other)
    (within : pairs.Within more) : EndAlike pairs R ended other := by
  cases alike with
  | returned further in_step related => exact .returned (within.trans further) in_step related
  | raised further in_step alike => exact .raised (within.trans further) in_step alike
  | unfinished further in_step => exact .unfinished (within.trans further) in_step

theorem StaysInStep.pure {result : α} {counterpart : β} (related : R pairs result counterpart) :
    StaysInStep pairs R (pure result) (pure counterpart) :=
  fun _ _ in_step => .returned (.refl pairs) in_step related

theorem StaysInStep.raise {failure counterpart : Failure}
    (alike : failure.Alike pairs counterpart) :
    StaysInStep pairs R (Effect.raise failure) (Effect.raise counterpart) :=
  fun _ _ in_step => .raised (.refl pairs) in_step alike

theorem StaysInStep.bind {work : Work α} {other : Work β} {next : α → Work γ}
    {further : β → Work δ} (first : StaysInStep pairs R work other)
    (second : ∀ {more : Pairing} {result : α} {counterpart : β}, pairs.Within more →
      R more result counterpart → StaysInStep more Q (next result) (further counterpart)) :
    StaysInStep pairs Q (work >>= next) (other >>= further) := by
  intro bench counterpart in_step
  have ended := first bench counterpart in_step
  rw [ExceptT.outcome_bind, ExceptT.outcome_bind]
  generalize work.outcome bench = outcome at ended ⊢
  generalize other.outcome counterpart = twin at ended ⊢
  cases ended with
  | returned within in_step related => exact (second within related _ _ in_step).after within
  | raised within in_step alike => exact .raised within in_step alike
  | unfinished within in_step => exact .unfinished within in_step

theorem StaysInStep.imp {work : Work α} {other : Work β} (stays : StaysInStep pairs R work other)
    (weaker : ∀ {more : Pairing} {result : α} {counterpart : β}, pairs.Within more →
      R more result counterpart → S more result counterpart) :
    StaysInStep pairs S work other := by
  intro bench counterpart in_step
  have ended := stays bench counterpart in_step
  generalize work.outcome bench = outcome at ended ⊢
  generalize other.outcome counterpart = twin at ended ⊢
  cases ended with
  | returned within in_step related => exact .returned within in_step (weaker within related)
  | raised within in_step alike => exact .raised within in_step alike
  | unfinished within in_step => exact .unfinished within in_step

/-- Results that are returned by work in step are related. -/
theorem StaysInStep.of_returns {work : Work α} {other : Work β}
    (stays : StaysInStep pairs R work other) {bench counterpart after last : Workbench}
    (in_step : bench.InStep pairs counterpart) {result : α} {twin : β}
    (returned : work.Returns bench result after)
    (other_returned : other.Returns counterpart twin last) :
    ∃ more, after.InStep more last ∧ R more result twin := by
  have ended := stays bench counterpart in_step
  rw [show work.outcome bench = _ from returned,
    show other.outcome counterpart = _ from other_returned] at ended
  cases ended with
  | returned _ in_step related => exact ⟨_, in_step, related⟩

/-- While sessions are in step, variables are told apart alike in both. -/
theorem StaysInStep.of_apart {work : Work α} {other : Work β}
    (stays : pairs.Apart → StaysInStep pairs R work other) : StaysInStep pairs R work other :=
  fun bench counterpart in_step => stays in_step.apart bench counterpart in_step

theorem stays_mapM {step : α → Work γ} {counterpart : β → Work δ} (persistent : Persistent R)
    (result_persistent : Persistent Q)
    (each : ∀ {more : Pairing} {item : α} {other : β}, R more item other →
      StaysInStep more Q (step item) (counterpart other)) {items : List α} {others : List β}
    (all : List.Forall₂ (R pairs) items others) :
    StaysInStep pairs (fun more => List.Forall₂ (Q more)) (items.mapM step)
      (others.mapM counterpart) := by
  induction items generalizing others pairs with
  | nil =>
      cases all
      exact .pure .nil
  | cons item items ih =>
      rcases all with _ | ⟨first, rest⟩
      rw [List.mapM_cons, List.mapM_cons]
      refine (each first).bind fun within related => ?_
      have rest_later := rest.imp fun _ _ => persistent _ _ _ _ within
      refine (ih rest_later).bind fun further all_related => ?_
      exact .pure (.cons (result_persistent _ _ _ _ further related) all_related)

theorem stays_foldlM {step : γ → α → Work γ} {counterpart : δ → β → Work δ}
    (persistent : Persistent R)
    (each : ∀ {more : Pairing} {start : γ} {origin : δ} {item : α} {other : β},
      Q more start origin → R more item other →
        StaysInStep more Q (step start item) (counterpart origin other))
    {items : List α} {others : List β} (all : List.Forall₂ (R pairs) items others) {start : γ}
    {origin : δ} (related : Q pairs start origin) :
    StaysInStep pairs Q (items.foldlM step start) (others.foldlM counterpart origin) := by
  induction items generalizing others pairs start origin with
  | nil =>
      cases all
      exact .pure related
  | cons item items ih =>
      rcases all with _ | ⟨first, rest⟩
      rw [List.foldlM_cons, List.foldlM_cons]
      exact (each related first).bind fun within result_related =>
        ih (rest.imp fun _ _ => persistent _ _ _ _ within) result_related

end Rules

/-! ## Single orders -/

section Orders

variable {pairs : Pairing}

theorem stays_consult {α : Type} (access : Registry.Access α) :
    StaysInStep pairs (fun _ => Eq) (consult access) (consult access) := by
  intro bench counterpart in_step
  rcases ended : access.outcome bench.terms with ⟨reason | result, terms⟩
  · have failed : (consult access).outcome bench = _ := consult_fails ended
    have counterpart_failed : (consult access).outcome counterpart = _ :=
      consult_fails (in_step.terms_eq ▸ ended)
    rw [failed, counterpart_failed]
    exact .raised (.refl pairs) { in_step with terms_eq := rfl } rfl
  · have returned : (consult access).outcome bench = _ := consult_returns ended
    have counterpart_returned : (consult access).outcome counterpart = _ :=
      consult_returns (in_step.terms_eq ▸ ended)
    rw [returned, counterpart_returned]
    exact .returned (.refl pairs) { in_step with terms_eq := rfl } rfl

theorem stays_nextSerial : StaysInStep pairs (fun _ => Eq) nextSerial nextSerial := by
  intro bench counterpart in_step
  refine .returned (.refl pairs) ?_ in_step.serial_eq.symm
  refine { in_step with serial_eq := ?_, drawn := fun paired => ?_ }
  · exact congrArg (· + 1) in_step.serial_eq
  · exact Nat.lt_succ_of_lt (in_step.drawn paired)

theorem stays_log (line other : String) :
    StaysInStep pairs (fun _ _ _ => True) (log line) (log other) :=
  fun _ _ in_step => .returned (.refl pairs) { in_step with } trivial

theorem Workbench.InStep.adding {bench other : Workbench} (in_step : bench.InStep pairs other)
    (name counterpart : String) :
    Workbench.InStep
      (pairs.adding ⟨bench.nextSerial, name⟩ ⟨bench.nextSerial, counterpart⟩)
      { bench with nextSerial := bench.nextSerial + 1 }
      { other with nextSerial := other.nextSerial + 1 } where
  serial_eq := congrArg (· + 1) in_step.serial_eq
  terms_eq := in_step.terms_eq
  size_eq := in_step.size_eq
  combinators number := by
    have related := in_step.combinators number
    generalize bench.combinators[number]? = combinator? at related ⊢
    generalize other.combinators[number]? = other? at related ⊢
    cases related with
    | none => exact .none
    | some twins => exact .some (twins.within fun _ _ => .inl)
  session := in_step.session.within fun _ _ => .inl
  apart := by
    refine ⟨?_, ?_⟩
    · rintro x y (paired | ⟨rfl, rfl⟩)
      · exact in_step.apart.serial_eq paired
      · rfl
    · rintro x y z w (first | ⟨rfl, rfl⟩) (second | ⟨rfl, rfl⟩) same
      · exact in_step.apart.unique first second same
      · exact absurd same (Nat.ne_of_lt (in_step.drawn first))
      · exact absurd same.symm (Nat.ne_of_lt (in_step.drawn second))
      · exact ⟨rfl, rfl⟩
  drawn := by
    rintro x y (paired | ⟨rfl, rfl⟩)
    · exact Nat.lt_succ_of_lt (in_step.drawn paired)
    · exact Nat.lt_succ_self _

theorem stays_newVar (name other : String) :
    StaysInStep pairs (fun more => more) (newVar name) (newVar other) := by
  intro bench counterpart in_step
  have adding := in_step.adding name other
  have drawn : (newVar other).outcome counterpart =
      (.ok ⟨bench.nextSerial, other⟩,
        { counterpart with nextSerial := counterpart.nextSerial + 1 }) := by
    rw [← in_step.serial_eq]
    rfl
  rw [drawn]
  exact .returned (fun _ _ => .inl) adding (.inr ⟨rfl, rfl⟩)

theorem stays_termForm (value : TypedTerm) :
    StaysInStep pairs (fun _ _ _ => True) (termForm value) (termForm value) :=
  (stays_consult _).bind fun _ _ => .pure trivial

theorem stays_termText (value : TypedTerm) :
    StaysInStep pairs (fun _ _ _ => True) (termText value) (termText value) :=
  (stays_consult _).imp fun _ _ => trivial

theorem Workbench.InStep.changed {bench other : Workbench} (in_step : bench.InStep pairs other)
    (number : Nat) {change : Combinator → Combinator}
    (changes : ∀ {combinator counterpart : Combinator},
      TwinCombinator pairs combinator counterpart →
        TwinCombinator pairs (change combinator) (change counterpart)) :
    (bench.changed number change).InStep pairs (other.changed number change) := by
  refine { in_step with size_eq := ?_, combinators := fun place => ?_ }
  · simp [Workbench.changed, in_step.size_eq]
  · have related := in_step.combinators place
    simp only [Workbench.changed, Array.getElem?_modify]
    generalize bench.combinators[place]? = combinator? at related ⊢
    generalize other.combinators[place]? = other? at related ⊢
    split
    · cases related with
      | none => exact .none
      | some twins => exact .some (changes twins)
    · exact related

end Orders

end Lambda
end Combinatory
