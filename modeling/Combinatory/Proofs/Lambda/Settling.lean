import Mathlib.Data.Finset.Card
import Mathlib.Logic.Relation
import Combinatory.Proofs.Lambda.Asking
import Combinatory.Proofs.Lambda.Symbolic

/-!
# How combinators settle

What comes of asking for the term of a combinator is settled by the combinators alone, whatever has
been kept: it is what comes of the draft of the function that it wraps, where one combinator less is
not being compiled. Recursion ends there because there are finitely many combinators.

A combinator that has a term mentions none that has not, and one term is enough less to be compiled
for it. So no combinator has a term from which mentions lead to a combinator that mentions itself,
directly or through others, and a combinator is refused for recursion exactly if its compilation
comes back to one that is being compiled.
-/

namespace Combinatory
namespace Lambda

/-- The variables of an expression, each once. -/
def varsOf (expr : Open Empty) : List Var :=
  match expr.freeVars with
  | .ok xs => xs
  | .error value => value.elim

namespace Draft

/-- The term that an expression is, if no variables are left in it. -/
def close : Open Empty → Draft TypedTerm
  | .term value => .done value
  | expr => .failed (.unbound (((varsOf expr).map Var.name).mergeSort (· ≤ ·)))

/-- What comes of a draft by the given answers, where numbers are drawn from the given one on. -/
def outcome {α : Type} (answers : Answers) (draft : Draft α) (count : Nat) : Except Failure α :=
  match draft.run answers count with
  | .ok (result, _) => .ok result
  | .error failure => .error failure

end Draft

/-- The signature with its default values as expressions. Those of functions as they are written are
closed terms; `I` stands for what is no expression. -/
def Signature.drafted (signature : Signature Object) : Signature (Open Empty) :=
  signature.map fun value => value.expr?.getD (.term .I)

@[simp]
theorem Signature.drafted_map_term (signature : Signature TypedTerm) :
    (signature.map Open.term).drafted = signature.map .term :=
  signature.map_map _ _

namespace Workbench

/-- The draft of the term to which a function is compiled. -/
def functionDraft (book : Workbench) (signature : Signature (Open Empty)) (body : Expr) :
    Draft TypedTerm := do
  Draft.close (← signature.draft fun bound => body.draft book.part bound)

/-- The draft of the term of a combinator that wraps a function. -/
def draft (book : Workbench) (number : Nat) : Draft TypedTerm :=
  match book.combinators[number]? with
  | some { source := .foreign (.function _ _ signature body _), .. } =>
      book.functionDraft signature.drafted body
  | _ => .failed .noAttribute

/-- What comes of asking for the term of a combinator if no terms are kept and the combinators that
are not listed are being compiled. -/
def settle (book : Workbench) (idle : Finset Nat) (number : Nat) : Except Failure TypedTerm :=
  match book.combinators[number]? with
  | none => .error .noAttribute
  | some combinator =>
      if _ : number ∈ idle then
        (book.draft number).outcome (fun other => book.settle (idle.erase number) other)
          book.nextSerial
      else .error combinator.refusal
termination_by idle.card
decreasing_by
  rename_i inside
  exact Finset.card_erase_lt_of_mem inside

/-- The combinators whose terms a combinator comes to ask for when it is compiled. -/
def asks (book : Workbench) (idle : Finset Nat) (number : Nat) : List Nat :=
  (book.draft number).asked (book.settle (idle.erase number)) book.nextSerial

/-- The name stands for the combinator. -/
def Names (book : Workbench) (name : String) (number : Nat) : Prop :=
  ∃ name?, book.session.lookup name = some (.foreign (.combinator number name?))

/-- The function that the first combinator wraps mentions the second one. -/
def Mentions (book : Workbench) (number other : Nat) : Prop :=
  ∃ combinator serial name signature body scope free,
    book.combinators[number]? = some combinator ∧
      combinator.source = .foreign (.function serial name signature body scope) ∧
        free ∈ body.freeNames ∧ free ∉ signature.names ∧ book.Names free other

variable {book : Workbench} {idle others : Finset Nat} {number other : Nat} {value : TypedTerm}

/-! ## Settling -/

theorem settle_absent (absent : book.combinators[number]? = none) :
    book.settle idle number = .error .noAttribute := by
  rw [settle, absent]

theorem settle_compiling {combinator : Combinator}
    (found : book.combinators[number]? = some combinator) (compiling : number ∉ idle) :
    book.settle idle number = .error combinator.refusal := by
  rw [settle, found]
  simp [compiling]

theorem settle_idle {combinator : Combinator}
    (found : book.combinators[number]? = some combinator) (inside : number ∈ idle) :
    book.settle idle number =
      (book.draft number).outcome (book.settle (idle.erase number)) book.nextSerial := by
  rw [settle, found]
  simp [inside]

/-- A combinator with a term is not being compiled, and its draft comes to the term. -/
theorem settle_eq_ok_iff :
    book.settle idle number = .ok value ↔
      number ∈ idle ∧
        ∃ count, (book.draft number).run (book.settle (idle.erase number)) book.nextSerial =
          .ok (value, count) := by
  have outcome_eq_ok_iff :
      (book.draft number).outcome (book.settle (idle.erase number)) book.nextSerial = .ok value ↔
        ∃ count, (book.draft number).run (book.settle (idle.erase number)) book.nextSerial =
          .ok (value, count) := by
    unfold Draft.outcome
    split
    · simp_all
    · simp_all
  cases found : book.combinators[number]? with
  | none =>
      have no_draft : book.draft number = .failed .noAttribute := by
        rw [draft, found]
      simp [settle_absent found, no_draft, Draft.run]
  | some combinator =>
      by_cases inside : number ∈ idle
      · rw [settle_idle found inside, outcome_eq_ok_iff]
        simp [inside]
      · simp [settle_compiling found inside, inside]

/-! ## Mentions -/

theorem within_part {allowed : Nat → Prop} {name : String}
    (named : ∀ number, book.Names name number → allowed number) :
    (book.part name).Within allowed (Part.Within allowed) := by
  unfold part
  split
  · rename_i object found
    unfold partOf
    split
    · rename_i number name?
      exact named number ⟨name?, found⟩
    · trivial
    · split
      · trivial
      · rintro other ⟨⟩
  · split
    · trivial
    · trivial
    · trivial
    · rintro other ⟨⟩

theorem part_of_names {name : String} (named : book.Names name number) :
    book.part name = .done (.combinator number) := by
  obtain ⟨name?, found⟩ := named
  simp only [part, found, partOf]

theorem within_close {allowed : Nat → Prop} (expr : Open Empty) :
    (Draft.close expr).Within allowed fun _ => True := by
  unfold Draft.close
  split
  · trivial
  · rintro name ⟨⟩

/-- A function asks for no other terms than those of the combinators that it mentions. -/
theorem within_functionDraft {allowed : Nat → Prop} {signature : Signature (Open Empty)}
    {body : Expr} (mentioned : ∀ free ∈ body.freeNames, free ∉ signature.names → ∀ number,
      book.Names free number → allowed number) :
    (book.functionDraft signature body).Within allowed fun _ => True := by
  refine (Signature.within_draft fun bound bound_names => ?_).bind fun expr _ => within_close expr
  refine Expr.within_draft body bound fun free mem outside => within_part fun number named =>
    mentioned free mem ?_ number named
  rwa [← bound_names]

theorem within_draft (book : Workbench) (number : Nat) :
    (book.draft number).Within (book.Mentions number) fun _ => True := by
  unfold draft
  split
  · rename_i serial name signature body scope _ _ _ found
    refine within_functionDraft fun free mem outside other named =>
      ⟨_, serial, name, signature, body, scope, free, found, rfl, mem, ?_, named⟩
    rwa [Signature.drafted, Signature.names_map] at outside
  · rintro name ⟨⟩

theorem asksFor_draft (mentions : book.Mentions number other) :
    (book.draft number).AsksFor other fun _ => False := by
  obtain ⟨combinator, serial, name, signature, body, scope, free, found, source_eq, mem, outside,
    named⟩ := mentions
  obtain ⟨source, name?, compiling, term?⟩ := combinator
  obtain rfl : source = _ := source_eq
  simp only [draft, found]
  refine (Signature.asksFor_draft fun bound bound_names => ?_).bind fun _ => False.elim
  refine Expr.asksFor_draft body bound mem ?_ (part_of_names named)
  rwa [bound_names, Signature.drafted, Signature.names_map]

theorem mentions_of_mem_asks (mem : other ∈ book.asks idle number) : book.Mentions number other :=
  (within_draft book number).mem_asked mem

/-- A combinator keeps its term if others are being compiled, but none to which mentions lead from
it. -/
theorem settle_of_reached (ok : book.settle idle number = .ok value)
    (reached : ∀ other, Relation.ReflTransGen book.Mentions number other → other ∈ idle →
      other ∈ others) : book.settle others number = .ok value := by
  induction idle using Finset.strongInduction generalizing others number value with
  | H idle ih =>
      obtain ⟨inside, count, ran⟩ := settle_eq_ok_iff.mp ok
      refine settle_eq_ok_iff.mpr ⟨reached number .refl inside, count, ?_⟩
      rw [← ran]
      refine Draft.run_congr fun asked mem => ?_
      obtain ⟨answer, answered⟩ := Draft.answered_of_run_ok ran mem
      rw [answered]
      refine ih (idle.erase number) (Finset.erase_ssubset inside) answered
        fun other leads mem_rest => ?_
      obtain ⟨apart, other_mem⟩ := Finset.mem_erase.mp mem_rest
      exact Finset.mem_erase.mpr
        ⟨apart, reached other (.head (mentions_of_mem_asks mem) leads) other_mem⟩

/-- A combinator keeps its term if fewer are being compiled. -/
theorem settle_mono (subset : idle ⊆ others) (ok : book.settle idle number = .ok value) :
    book.settle others number = .ok value :=
  settle_of_reached ok fun _ _ mem => subset mem

/-- What a combinator with a term mentions has a term while the combinator is being compiled. -/
theorem settle_mentioned (ok : book.settle idle number = .ok value)
    (mentions : book.Mentions number other) :
    ∃ answer, book.settle (idle.erase number) other = .ok answer := by
  obtain ⟨-, count, ran⟩ := settle_eq_ok_iff.mp ok
  rcases (asksFor_draft mentions).mem_asked ran with mem | impossible
  · exact Draft.answered_of_run_ok ran mem
  · exact impossible.elim

/-- All combinators to which mentions lead from one with a term have terms while it is being
compiled. -/
theorem settle_reached (ok : book.settle idle number = .ok value)
    (reached : Relation.TransGen book.Mentions number other) :
    ∃ answer, book.settle (idle.erase number) other = .ok answer := by
  induction reached with
  | single mentions => exact settle_mentioned ok mentions
  | tail _ mentions ih =>
      obtain ⟨_, middle_ok⟩ := ih
      obtain ⟨answer, answered⟩ := settle_mentioned middle_ok mentions
      exact ⟨answer, settle_mono (Finset.erase_subset _ _) answered⟩

/-- None of the combinators to which mentions lead from one with a term is being compiled. -/
theorem mem_of_settle (ok : book.settle idle number = .ok value)
    (leads : Relation.ReflTransGen book.Mentions number other) : other ∈ idle := by
  rcases Relation.reflTransGen_iff_eq_or_transGen.mp leads with rfl | reached
  · exact (settle_eq_ok_iff.mp ok).1
  · obtain ⟨answer, answered⟩ := settle_reached ok reached
    exact Finset.mem_of_mem_erase (settle_eq_ok_iff.mp answered).1

/-- A combinator with a term does not mention itself, directly or through others. -/
theorem not_mentions_self (ok : book.settle idle number = .ok value) :
    ¬ Relation.TransGen book.Mentions number number := by
  intro cycle
  obtain ⟨answer, answered⟩ := settle_reached ok cycle
  exact Finset.notMem_erase number idle (settle_eq_ok_iff.mp answered).1

/-- A combinator from which mentions lead to one that mentions itself has no term. -/
theorem settle_ne_ok_of_cycle (leads : Relation.ReflTransGen book.Mentions number other)
    (cycle : Relation.TransGen book.Mentions other other) :
    book.settle idle number ≠ .ok value := by
  intro ok
  rcases Relation.reflTransGen_iff_eq_or_transGen.mp leads with rfl | reached
  · exact not_mentions_self ok cycle
  · obtain ⟨answer, answered⟩ := settle_reached ok reached
    exact not_mentions_self answered cycle

/-! ## Recursion -/

/-- Asking for the term of the first combinator comes to asking for that of the last one. The lists
are of the combinators that are not being compiled then. -/
inductive Visits (book : Workbench) : Finset Nat → Nat → Finset Nat → Nat → Prop
  /-- The combinator is the last one itself. -/
  | now {idle : Finset Nat} {number : Nat} : Visits book idle number idle number
  /-- Its compilation asks for one that comes to the last one. -/
  | later {idle inner : Finset Nat} {number other last : Nat} (inside : number ∈ idle)
      (asked : other ∈ book.asks idle number)
      (visits : Visits book (idle.erase number) other inner last) :
      Visits book idle number inner last

/-- The combinator has the name. -/
def HasName (book : Workbench) (number : Nat) (name : String) : Prop :=
  ∃ combinator, book.combinators[number]? = some combinator ∧ combinator.name? = some name

theorem refusal_eq_recursive_iff {combinator : Combinator} {name : String} :
    combinator.refusal = .recursive name ↔ combinator.name? = some name := by
  unfold Combinator.refusal
  cases combinator.name? <;> simp

/-- A combinator is refused for recursion exactly if its compilation comes back to one that is being
compiled, of which the refusal gives the name. -/
theorem settle_eq_recursive_iff {name : String} :
    book.settle idle number = .error (.recursive name) ↔
      ∃ inner again, book.Visits idle number inner again ∧ again ∉ inner ∧
        book.HasName again name := by
  constructor
  · intro refused
    induction idle using Finset.strongInduction generalizing number with
    | H idle ih =>
        cases found : book.combinators[number]? with
        | none =>
            rw [settle_absent found] at refused
            cases refused
        | some combinator =>
            by_cases inside : number ∈ idle
            · rw [settle_idle found inside, Draft.outcome] at refused
              split at refused
              · cases refused
              · rename_i ran
                obtain rfl := Except.error.inj refused
                obtain ⟨other, mem, other_refused⟩ :=
                  (within_draft book number).asked_of_run_recursive ran
                obtain ⟨inner, again, visits, compiling, named⟩ :=
                  ih (idle.erase number) (Finset.erase_ssubset inside) other_refused
                exact ⟨inner, again, .later inside mem visits, compiling, named⟩
            · rw [settle_compiling found inside] at refused
              exact ⟨idle, number, .now, inside, combinator, found,
                refusal_eq_recursive_iff.mp (Except.error.inj refused)⟩
  · rintro ⟨inner, again, visits, compiling, combinator, found, named⟩
    induction visits with
    | now => rw [settle_compiling found compiling, refusal_eq_recursive_iff.mpr named]
    | @later idle inner number other again inside asked _ ih =>
        have ran := Draft.run_error_of_asked asked (ih compiling found)
        cases number_found : book.combinators[number]? with
        | none =>
            have no_draft : book.draft number = .failed .noAttribute := by
              rw [draft, number_found]
            rw [no_draft] at ran
            cases ran
        | some _ => rw [settle_idle number_found inside, Draft.outcome, ran]

variable {inner : Finset Nat} {last : Nat}

/-- A combinator to which compilation comes is reached by mentions. -/
theorem Visits.reached (visits : book.Visits idle number inner last) :
    Relation.ReflTransGen book.Mentions number last := by
  induction visits with
  | now => exact .refl
  | later _ asked _ ih => exact .head (mentions_of_mem_asks asked) ih

/-- A combinator to which compilation comes back while it is being compiled is being compiled from
the start or mentions itself, directly or through others. -/
theorem Visits.cycle (visits : book.Visits idle number inner last) (compiling : last ∉ inner) :
    last ∉ idle ∨ Relation.TransGen book.Mentions last last := by
  induction visits with
  | now => exact .inl compiling
  | @later idle inner number other last _ asked visits ih =>
      rcases ih compiling with outside | cycle
      · by_cases same : last = number
        · subst same
          exact .inr (.head' (mentions_of_mem_asks asked) visits.reached)
        · exact .inl fun inside => outside (Finset.mem_erase.mpr ⟨same, inside⟩)
      · exact .inr cycle

/-- A combinator with a term to which compilation comes has it there, too, since those that are
being compiled lead to it. -/
theorem Visits.settle_eq (visits : book.Visits idle number inner last)
    (ok : book.settle idle last = .ok value) : book.settle inner last = .ok value := by
  induction visits with
  | now => exact ok
  | @later idle inner number other last _ asked visits ih =>
      refine ih (settle_of_reached ok fun further leads mem => Finset.mem_erase.mpr ⟨?_, mem⟩)
      -- Otherwise the combinator would mention itself through the one that leads to it.
      rintro rfl
      have back : Relation.TransGen book.Mentions further last :=
        .head' (mentions_of_mem_asks asked) visits.reached
      exact not_mentions_self ok (.trans_right leads back)

end Workbench
end Lambda
end Combinatory
