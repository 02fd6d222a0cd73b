import Combinatory.Lambda.Basic
import Combinatory.Proofs.Lambda.Abstraction

/-!
# Drafts

A draft says what is made of the terms of combinators without saying where these come from. It asks
for them one after another, draws numbers for new variables, and ends in a result or a failure. What
comes of a draft is decided by the answers to what it asks, and it asks no further after an answer
that is a failure.
-/

namespace Combinatory
namespace Lambda

/-- What is made of the terms of combinators, of which some are asked for. -/
inductive Draft (α : Type) where
  /-- The draft has a result. -/
  | done (result : α)
  /-- The draft fails. -/
  | failed (failure : Failure)
  /-- A new number is drawn. -/
  | draws (next : Nat → Draft α)
  /-- The term of a combinator is asked for. -/
  | asks (number : Nat) (next : TypedTerm → Draft α)

/-- The answers to what drafts ask: the terms of combinators, or why there are none. -/
abbrev Answers := Nat → Except Failure TypedTerm

namespace Draft

variable {α β γ : Type}

/-- One draft after another. -/
def bind : Draft α → (α → Draft β) → Draft β
  | done result, further => further result
  | failed failure, _ => failed failure
  | draws next, further => draws fun serial => (next serial).bind further
  | asks number next, further => asks number fun value => (next value).bind further

instance : Monad Draft where
  pure := done
  bind := bind

@[simp]
theorem pure_eq (result : α) : (pure result : Draft α) = done result := rfl

@[simp]
theorem done_bind (result : α) (further : α → Draft β) : done result >>= further = further result :=
  rfl

@[simp]
theorem failed_bind (failure : Failure) (further : α → Draft β) :
    failed failure >>= further = failed failure := rfl

@[simp]
theorem draws_bind (next : Nat → Draft α) (further : α → Draft β) :
    draws next >>= further = draws fun serial => next serial >>= further := rfl

@[simp]
theorem asks_bind (number : Nat) (next : TypedTerm → Draft α) (further : α → Draft β) :
    asks number next >>= further = asks number fun value => next value >>= further := rfl

theorem bind_done (draft : Draft α) : draft >>= done = draft := by
  induction draft with
  | done | failed => rfl
  | draws next ih => exact congrArg draws (funext ih)
  | asks number next ih => exact congrArg (asks number) (funext ih)

theorem bind_bind (draft : Draft α) (further : α → Draft β) (last : β → Draft γ) :
    draft >>= further >>= last = draft >>= fun result => further result >>= last := by
  induction draft with
  | done | failed => rfl
  | draws next ih => exact congrArg draws (funext ih)
  | asks number next ih => exact congrArg (asks number) (funext ih)

instance : LawfulMonad Draft :=
  LawfulMonad.mk' Draft bind_done (fun _ _ => rfl) bind_bind

/-- The term of a combinator. -/
def ask (number : Nat) : Draft TypedTerm :=
  asks number done

/-- A new variable. -/
def newVar (name : String) : Draft Var :=
  draws fun serial => done { serial, name }

/-- What a computation on expressions gives, which may be refused an application. -/
def ofExcept : Except (IllTyped Term) α → Draft α
  | .ok result => done result
  | .error refusal => failed (.term (.illTyped (refusal.map .ofTerm)))

/-! ## What comes of a draft -/

/-- What comes of a draft by the given answers, with the next number that has not been drawn. -/
def run (answers : Answers) : Draft α → Nat → Except Failure (α × Nat)
  | done result, count => .ok (result, count)
  | failed failure, _ => .error failure
  | draws next, count => (next count).run answers (count + 1)
  | asks number next, count =>
      match answers number with
      | .ok value => (next value).run answers count
      | .error failure => .error failure

/-- The combinators whose terms a draft comes to ask for by the given answers. -/
def asked (answers : Answers) : Draft α → Nat → List Nat
  | done _, _ => []
  | failed _, _ => []
  | draws next, count => (next count).asked answers (count + 1)
  | asks number next, count =>
      number ::
        match answers number with
        | .ok value => (next value).asked answers count
        | .error _ => []

section Run

variable {answers other : Answers} {draft : Draft α} {number count : Nat}
  {next : TypedTerm → Draft α}

theorem run_asks_ok {value : TypedTerm} (answered : answers number = .ok value) :
    (asks number next).run answers count = (next value).run answers count := by
  simp only [run, answered]

theorem run_asks_error {failure : Failure} (answered : answers number = .error failure) :
    (asks number next).run answers count = .error failure := by
  simp only [run, answered]

theorem asked_asks_ok {value : TypedTerm} (answered : answers number = .ok value) :
    (asks number next).asked answers count = number :: (next value).asked answers count := by
  simp only [asked, answered]

theorem asked_asks_error {failure : Failure} (answered : answers number = .error failure) :
    (asks number next).asked answers count = [number] := by
  simp only [asked, answered]

theorem run_bind (answers : Answers) (draft : Draft α) (further : α → Draft β) (count : Nat) :
    (draft >>= further).run answers count =
      match draft.run answers count with
      | .ok (result, later) => (further result).run answers later
      | .error failure => .error failure := by
  induction draft generalizing count with
  | done | failed => rfl
  | draws next ih => exact ih count (count + 1)
  | asks number next ih =>
      cases answered : answers number with
      | ok value =>
          rw [asks_bind, run_asks_ok answered, run_asks_ok answered]
          exact ih value count
      | error failure => rw [asks_bind, run_asks_error answered, run_asks_error answered]

theorem asked_bind (answers : Answers) (draft : Draft α) (further : α → Draft β) (count : Nat) :
    (draft >>= further).asked answers count =
      draft.asked answers count ++
        match draft.run answers count with
        | .ok (result, later) => (further result).asked answers later
        | .error _ => [] := by
  induction draft generalizing count with
  | done | failed => rfl
  | draws next ih => exact ih count (count + 1)
  | asks number next ih =>
      cases answered : answers number with
      | ok value =>
          rw [asks_bind, asked_asks_ok answered, asked_asks_ok answered, run_asks_ok answered,
            ih value count, List.cons_append]
      | error failure =>
          rw [asks_bind, asked_asks_error answered, asked_asks_error answered,
            run_asks_error answered, List.append_nil]

/-- Only the answers to what a draft asks matter to it. -/
theorem run_congr (agree : ∀ number ∈ draft.asked answers count, other number = answers number) :
    draft.run other count = draft.run answers count := by
  induction draft generalizing count with
  | done | failed => rfl
  | draws next ih => exact ih count agree
  | asks number next ih =>
      cases answered : answers number with
      | error failure =>
          rw [asked_asks_error answered] at agree
          have same := (agree number List.mem_cons_self).trans answered
          rw [run_asks_error answered, run_asks_error same]
      | ok value =>
          rw [asked_asks_ok answered] at agree
          have same := (agree number List.mem_cons_self).trans answered
          rw [run_asks_ok answered, run_asks_ok same]
          exact ih value fun further mem => agree further (List.mem_cons_of_mem number mem)

/-- A draft that has a result has been answered all it has asked. -/
theorem answered_of_run_ok {result : α × Nat} (ok : draft.run answers count = .ok result)
    (mem : number ∈ draft.asked answers count) : ∃ value, answers number = .ok value := by
  induction draft generalizing count with
  | done | failed => cases mem
  | draws next ih => exact ih count ok mem
  | asks first next ih =>
      cases answered : answers first with
      | error failure =>
          rw [run_asks_error answered] at ok
          cases ok
      | ok value =>
          rw [run_asks_ok answered] at ok
          rw [asked_asks_ok answered] at mem
          cases mem with
          | head => exact ⟨value, answered⟩
          | tail _ mem => exact ih value ok mem

/-- A draft fails as the answer does that is a failure. -/
theorem run_error_of_asked {failure : Failure} (mem : number ∈ draft.asked answers count)
    (refused : answers number = .error failure) : draft.run answers count = .error failure := by
  induction draft generalizing count with
  | done | failed => cases mem
  | draws next ih => exact ih count mem
  | asks first next ih =>
      cases answered : answers first with
      | error failure =>
          rw [asked_asks_error answered] at mem
          obtain rfl := List.mem_singleton.mp mem
          rw [run_asks_error refused]
      | ok value =>
          rw [asked_asks_ok answered] at mem
          rw [run_asks_ok answered]
          cases mem with
          | head => cases answered.symm.trans refused
          | tail _ mem => exact ih value mem

end Run

/-! ## What a draft may ask and has to ask -/

/-- The draft asks for no other terms than allowed, fails by itself for other reasons than that a
combinator is being compiled, and has no other results than good ones. -/
def Within (allowed : Nat → Prop) (good : α → Prop) : Draft α → Prop
  | done result => good result
  | failed failure => ∀ name, failure ≠ .recursive name
  | draws next => ∀ serial, (next serial).Within allowed good
  | asks number next => allowed number ∧ ∀ value, (next value).Within allowed good

/-- Wherever the draft gets to a result, it has asked for the term of the combinator or the result
is good. -/
def AsksFor (number : Nat) (good : α → Prop) : Draft α → Prop
  | done result => good result
  | failed _ => True
  | draws next => ∀ serial, (next serial).AsksFor number good
  | asks other next => other = number ∨ ∀ value, (next value).AsksFor number good

section Asking

variable {allowed : Nat → Prop} {good better : α → Prop} {best : β → Prop} {answers : Answers}
  {draft : Draft α} {further : α → Draft β} {number count : Nat}

theorem Within.bind (first : draft.Within allowed good)
    (second : ∀ result, good result → (further result).Within allowed best) :
    (draft >>= further).Within allowed best := by
  induction draft with
  | done result => exact second result first
  | failed failure => exact first
  | draws next ih => exact fun serial => ih serial (first serial)
  | asks number next ih => exact ⟨first.1, fun value => ih value (first.2 value)⟩

theorem Within.mem_asked (within : draft.Within allowed good)
    (mem : number ∈ draft.asked answers count) : allowed number := by
  induction draft generalizing count with
  | done | failed => cases mem
  | draws next ih => exact ih count (within count) mem
  | asks first next ih =>
      cases answered : answers first with
      | error failure =>
          rw [asked_asks_error answered] at mem
          obtain rfl := List.mem_singleton.mp mem
          exact within.1
      | ok value =>
          rw [asked_asks_ok answered] at mem
          cases mem with
          | head => exact within.1
          | tail _ mem => exact ih value (within.2 value) mem

/-- A draft that fails because a combinator is being compiled has been answered so. -/
theorem Within.asked_of_run_recursive (within : draft.Within allowed good) {name : String}
    (refused : draft.run answers count = .error (.recursive name)) :
    ∃ number ∈ draft.asked answers count, answers number = .error (.recursive name) := by
  induction draft generalizing count with
  | done => cases refused
  | failed failure => exact absurd (Except.error.inj refused) (within name)
  | draws next ih => exact ih count (within count) refused
  | asks first next ih =>
      cases answered : answers first with
      | error failure =>
          rw [run_asks_error answered] at refused
          obtain rfl := Except.error.inj refused
          rw [asked_asks_error answered]
          exact ⟨first, List.mem_cons_self, answered⟩
      | ok value =>
          rw [run_asks_ok answered] at refused
          rw [asked_asks_ok answered]
          obtain ⟨number, mem, number_refused⟩ := ih value (within.2 value) refused
          exact ⟨number, List.mem_cons_of_mem first mem, number_refused⟩

theorem AsksFor.bind (first : draft.AsksFor number good)
    (second : ∀ result, good result → (further result).AsksFor number best) :
    (draft >>= further).AsksFor number best := by
  induction draft with
  | done result => exact second result first
  | failed failure => trivial
  | draws next ih => exact fun serial => ih serial (first serial)
  | asks other next ih => exact first.imp_right fun later value => ih value (later value)

theorem asksFor_of_forall (all : ∀ result, good result) : draft.AsksFor number good := by
  induction draft with
  | done result => exact all result
  | failed failure => trivial
  | draws next ih => exact ih
  | asks other next ih => exact .inr ih

/-- What comes after a draft asks for the term if it does so whatever the result. -/
theorem asksFor_bind_right (second : ∀ result, (further result).AsksFor number best) :
    (draft >>= further).AsksFor number best :=
  (asksFor_of_forall fun _ => trivial : draft.AsksFor number fun _ => True).bind
    fun result _ => second result

/-- A draft that has a result has asked for the term, or the result is good. -/
theorem AsksFor.mem_asked (asks : draft.AsksFor number good) {result : α} {later : Nat}
    (ok : draft.run answers count = .ok (result, later)) :
    number ∈ draft.asked answers count ∨ good result := by
  induction draft generalizing count with
  | done =>
      cases ok
      exact .inr asks
  | failed => cases ok
  | draws next ih => exact ih count (asks count) ok
  | asks first next ih =>
      cases answered : answers first with
      | error failure =>
          rw [run_asks_error answered] at ok
          cases ok
      | ok value =>
          rw [run_asks_ok answered] at ok
          rw [asked_asks_ok answered]
          rcases asks with rfl | asks
          · exact .inl List.mem_cons_self
          · exact (ih value (asks value) ok).imp_left (List.mem_cons_of_mem first)

end Asking

end Draft
end Lambda
end Combinatory
