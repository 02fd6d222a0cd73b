import Combinatory.Proofs.Evaluation.Connectives

/-!
# The equations of the library

Every combinator of the library has an equation, which says what it comes to when it is called on
all its arguments: an expression of these arguments, of other combinators and of calls. With any
values of any host in the places of the arguments, the run of the one side is a run of the other
side. As the host may keep a record of its calls and raise errors, the same calls are made in the
same order, and the same one of them is the last if it fails. Until the last argument is there
nothing is called at all, except that the disjunction calls its first operand at once.
-/

namespace Combinatory

namespace Effect

variable {σ ε α : Type}

/-! ## How runs end -/

/-- Granted enough steps, the runs end with the result or the error and leave the state. -/
def Ends (run : Nat → Effect σ ε α) (before : σ) (result : Except ε α) (after : σ) : Prop :=
  ∃ bound, ∀ steps, bound ≤ steps →
    (run steps).outcome before = (result.mapError .raised, after)

/-- From every state the runs end in the same way, if they end. -/
def GoesLike (left right : Nat → Effect σ ε α) : Prop :=
  ∀ before result after, Ends left before result after ↔ Ends right before result after

/-- A run that ends is continued only by runs that end in the same way. -/
theorem ContinuedBy.ends {short long : Effect σ ε α} {before after : σ} {result : Except ε α}
    (continued : short.ContinuedBy long)
    (ended : short.outcome before = (result.mapError .raised, after)) :
    long.outcome before = (result.mapError .raised, after) := by
  rcases continued before with ⟨_, unfinished⟩ | same
  · rw [ExceptT.Fails, ended] at unfinished
    cases result <;> cases unfinished
  · exact same.trans ended

/-- Runs that are between other ones that are granted fewer and more steps go like them. -/
theorem goesLike_of_between {left right : Nat → Effect σ ε α} (extra : Nat)
    (continues : ∀ steps, (right steps).ContinuedBy (left (steps + extra)))
    (continued : ∀ steps, (left (steps + extra)).ContinuedBy (right (steps + extra))) :
    GoesLike left right := by
  intro before result after
  constructor
  · rintro ⟨bound, ended⟩
    refine ⟨bound + extra, fun steps enough => ?_⟩
    obtain ⟨fewer, rfl⟩ := Nat.exists_eq_add_of_le' (Nat.le_of_add_left_le enough)
    exact (continued fewer).ends (ended _ (Nat.le_of_add_right_le enough))
  · rintro ⟨bound, ended⟩
    refine ⟨bound + extra, fun steps enough => ?_⟩
    obtain ⟨fewer, rfl⟩ := Nat.exists_eq_add_of_le' (Nat.le_of_add_left_le enough)
    exact (continues fewer).ends (ended fewer (Nat.le_of_add_le_add_right enough))

end Effect

/-! ## Expressions -/

/-- A side of an equation. -/
inductive Side where
  /-- An argument, by its name. -/
  | operand (name : String)
  /-- The value of a term. -/
  | combinator (term : Term)
  /-- A call of a function with one argument. -/
  | call (fn arg : Side)

/-- The host whose values are the names of arguments, which cannot be called. -/
def Host.uncallable : Host String Unit Unit where
  call _ _ := Effect.raise ()

theorem Host.refuses_uncallable : uncallable.Refuses := nofun

namespace Side

/-- A call of a function with several arguments in turn. -/
def calls (fn : Side) (args : List Side) : Side :=
  args.foldl call fn

section

variable {H σ ε : Type} (host : Host H σ ε) (values : String → Value H)

/-- The value of an expression: function part, argument part, call. Each part of the expression is
granted its own number of steps. -/
def compute (granted : Side → Nat) : Side → Effect σ ε (Value H)
  | operand name => return values name
  | combinator term => host.evaluate (granted (combinator term)) term
  | call fn arg => do
      let fnValue ← fn.compute granted
      let argValue ← arg.compute granted
      host.apply (granted (call fn arg)) fnValue argValue

theorem compute_continuedBy {granted more : Side → Nat} (enough : ∀ part, granted part ≤ more part)
    (side : Side) :
    (side.compute host values granted).ContinuedBy (side.compute host values more) := by
  induction side with
  | operand name => exact .refl _
  | combinator term => exact host.evaluate_continuedBy (enough _) term
  | call fn arg fn_ih arg_ih =>
      exact fn_ih.bind fun fnValue => arg_ih.bind fun argValue =>
        host.apply_continuedBy (enough _) fnValue argValue

end

/-! ### Calls -/

/-- In every host, the left side does exactly what the right side does when its parts are granted a
few steps fewer. -/
def DoesAs (left right : Side) : Prop :=
  ∃ (extra : Nat) (fewer : Side → Nat), ∀ {H σ ε : Type} (host : Host H σ ε) values steps,
    left.compute host values (fun _ => steps + extra) =
      right.compute host values fun part => steps + (extra - fewer part)

theorem DoesAs.goesLike {left right : Side} (same : left.DoesAs right) {H σ ε : Type}
    (host : Host H σ ε) (values : String → Value H) :
    Effect.GoesLike (fun steps => left.compute host values fun _ => steps)
      fun steps => right.compute host values fun _ => steps := by
  obtain ⟨extra, fewer, same⟩ := same
  refine Effect.goesLike_of_between extra (fun steps => ?_) fun steps => ?_
  · rw [same]
    exact right.compute_continuedBy host values fun _ => Nat.le_add_right steps _
  · rw [same]
    exact right.compute_continuedBy host values fun _ =>
      Nat.add_le_add_left (Nat.sub_le extra _) steps

/-! ### No calls -/

/-- The expression has a value that depends on nothing but the arguments, and none of these is
called for it. -/
def Idle (side : Side) : Prop :=
  ∀ {H : Type} (values : String → Value H), ∃ (value : Value H) (bound : Nat),
    ∀ {σ ε : Type} (host : Host H σ ε) steps, bound ≤ steps →
      ∀ before, (side.compute host values fun _ => steps).Returns before value before

/-- An expression with a value where the arguments cannot be called has a value in every host. -/
theorem compute_replace {side : Side} {granted : Side → Nat} {value : Value String}
    (returned : (side.compute .uncallable .host granted).Returns () value ()) {H σ ε : Type}
    (host : Host H σ ε) (values : String → Value H) (before : σ) :
    (side.compute host values granted).Returns before (value.replace values) before := by
  induction side generalizing value with
  | operand name =>
      obtain ⟨rfl, -⟩ := ExceptT.returns_pure.mp returned
      rfl
  | combinator term =>
      exact Host.refuses_uncallable.evaluate_replace host values returned before
  | call fn arg fn_ih arg_ih =>
      obtain ⟨fnValue, ⟨⟩, fn_returned, returned⟩ := ExceptT.returns_bind.mp returned
      obtain ⟨argValue, ⟨⟩, arg_returned, returned⟩ := ExceptT.returns_bind.mp returned
      exact (fn_ih fn_returned).bind ((arg_ih arg_returned).bind
        (Host.refuses_uncallable.apply_replace host values returned before))

/-- Does the expression have a value where the arguments cannot be called? -/
def isIdle (steps : Nat) (side : Side) : Bool :=
  ((side.compute .uncallable .host fun _ => steps).outcome ()).1.isOk

theorem idle_of_isIdle {side : Side} {steps : Nat} (checked : side.isIdle steps = true) :
    side.Idle := by
  intro H values
  rcases ended : (side.compute .uncallable .host fun _ => steps).outcome () with
    ⟨error | value, ⟨⟩⟩
  · rw [isIdle, ended] at checked
    cases checked
  · refine ⟨value.replace values, steps, fun host more enough before => ?_⟩
    exact (side.compute_continuedBy host values fun _ => enough).returns
      (compute_replace ended host values before)

end Side

/-! ## Equations -/

/-- What a combinator comes to when it is called on all its arguments. -/
structure Law where
  /-- The name of the combinator. -/
  name : String
  /-- The combinator. -/
  term : Term
  /-- The names of the arguments. -/
  params : List String
  /-- What the combinator comes to. -/
  right : Side

namespace Law

open Side (operand combinator)

/-- The combinator, called on some arguments in turn. -/
def calledOn (law : Law) (args : List String) : Side :=
  (combinator law.term).calls (args.map operand)

/-- The combinator, called on all its arguments. -/
def left (law : Law) : Side :=
  law.calledOn law.params

/-- The equations of the library in its order of presentation. -/
def all : List Law :=
  let b := operand "b"
  let c := operand "c"
  let f := operand "f"
  let g := operand "g"
  let p := operand "p"
  let x := operand "x"
  let y := operand "y"
  let truth := combinator Library.truth
  let falsehood := combinator Library.falsehood
  let negation := combinator Library.negation
  [ ⟨"comp", Library.comp, ["f", "g", "x"], f.calls [g.calls [x]]⟩,
    ⟨"flip", Library.flip, ["p", "x", "y"], p.calls [y, x]⟩,
    ⟨"rev", Library.rev, ["x", "f"], f.calls [x]⟩,
    ⟨"rotr", Library.rotr, ["x", "p", "y"], p.calls [y, x]⟩,
    ⟨"rotv", Library.rotv, ["x", "y", "p"], p.calls [x, y]⟩,
    ⟨"join", Library.join, ["p", "x"], p.calls [x, x]⟩,
    ⟨"true", Library.truth, ["x", "y"], x⟩,
    ⟨"false", Library.falsehood, ["x", "y"], y⟩,
    ⟨"not", Library.negation, ["p", "x", "y"], p.calls [y, x]⟩,
    ⟨"and", Library.conjunction, ["b", "c"], b.calls [c, falsehood]⟩,
    ⟨"or", Library.disjunction, ["b", "c"], b.calls [truth, c]⟩,
    ⟨"xor", Library.exclusion, ["b", "c"], b.calls [negation.calls [c], c]⟩ ]

/-- The calls of a left side are nested in one another. How deep the calls of arguments are in
there tells how many steps these are granted: the same number mostly, but not always. -/
theorem doesAs_of_mem_all : ∀ law ∈ all, law.left.DoesAs law.right := by
  let alike : Side → Nat := fun _ => 1
  let innerDeeper : Side → Nat
    | .call (.call _ _) _ => 1
    | _ => 2
  let outerDeeper : Side → Nat
    | .call (.call _ _) _ => 2
    | _ => 1
  let outerLast : Side → Nat
    | .call (.call _ _) _ => 0
    | _ => 1
  simp only [all, List.forall_mem_cons]
  refine ⟨?comp, ?flip, ?rev, ?rotr, ?rotv, ?join, ?truth, ?falsehood, ?negation, ?conjunction,
    ?disjunction, ?exclusion, nofun⟩
  case rotv | exclusion => exact ⟨8, innerDeeper, fun _ _ _ => rfl⟩
  case conjunction => exact ⟨8, outerDeeper, fun _ _ _ => rfl⟩
  case disjunction => exact ⟨8, outerLast, fun _ _ _ => rfl⟩
  all_goals exact ⟨8, alike, fun _ _ _ => rfl⟩

/-- The disjunction is the one combinator that does not wait for its last argument. -/
theorem isIdle_of_mem_all : ∀ law ∈ all, ∀ args ∈ law.params.dropLast.inits,
    (law.name = "or" → args = []) → (law.calledOn args).isIdle 8 = true := by
  decide

/--
There is an equation for every combinator of the library. Whatever the arguments are, in whatever
host, the left side does what the right side does, so they end with the same result or the same
error and leave the same state. No argument is called before the last one is there, except that the
disjunction calls its first operand as soon as that is there.
-/
theorem library_equations_hold :
    (all.map fun law => (law.name, law.term)) =
        Library.entries.map (fun entry => (entry.name, entry.term)) ∧
      (∀ law ∈ all,
        law.left.DoesAs law.right ∧
          (∀ {H σ ε : Type} (host : Host H σ ε) (values : String → Value H),
            Effect.GoesLike (fun steps => law.left.compute host values fun _ => steps)
              fun steps => law.right.compute host values fun _ => steps) ∧
            ∀ args ∈ law.params.dropLast.inits,
              (law.name = "or" → args = []) → (law.calledOn args).Idle) ∧
        ((combinator Library.disjunction).calls [operand "b"]).DoesAs
          ((operand "b").calls [combinator Library.truth]) := by
  refine ⟨rfl, fun law listed => ⟨?_, fun host values => ?_, fun args supplied patient => ?_⟩,
    8, fun _ => 1, fun _ _ _ => rfl⟩
  · exact doesAs_of_mem_all law listed
  · exact (doesAs_of_mem_all law listed).goesLike host values
  · exact Side.idle_of_isIdle (isIdle_of_mem_all law listed args supplied patient)

end Law
end Combinatory
