import Combinatory.Proofs.Lambda.Drafting

/-!
# Asking for terms gives what combinators settle to

In every state of a session in which combinators wrap symbolic functions, asking for a term gives
what the combinator settles to, however much has been compiled before. The induction is on the
combinators that are not being compiled: a compilation is granted a fixed number of nested steps
more than one in which it is itself one of those that are.
-/

namespace Combinatory
namespace Lambda

namespace Workbench

/-- Combinators that wrap symbolic functions have been defined and not been used. Other names than
theirs stand for expressions and plain data. -/
structure Unused (book : Workbench) : Prop where
  /-- The registry is sound. -/
  sound : book.terms.Sound
  /-- Only expressions, combinators and plain data are named. -/
  named : book.NamesPlain
  /-- The combinators wrap symbolic functions. -/
  wraps : ∀ {number : Nat} {combinator : Combinator},
    book.combinators[number]? = some combinator → ∃ serial name,
      ∃ signature : Signature TypedTerm, ∃ body, combinator =
        { source := .foreign (.function serial name (signature.map .term) body []),
          name? := some name, compiling := false, term? := none } ∧ body.isSymbolic = true

/-- The nesting of the body of the function that a combinator wraps. -/
def bodyNesting (combinator : Combinator) : Nat :=
  match combinator.source with
  | .foreign (.function _ _ _ body _) => body.nesting
  | _ => 0

/-- The nesting of the most deeply nested body. -/
def height (book : Workbench) : Nat :=
  (book.combinators.toList.map bodyNesting).foldr max 0

variable {book before after : Workbench} {idle : Finset Nat} {number : Nat}
  {combinator : Combinator}

theorem le_height (found : book.combinators[number]? = some combinator) :
    bodyNesting combinator ≤ book.height := by
  have mem : combinator ∈ book.combinators.toList := by
    rw [← Array.getElem?_toList] at found
    exact List.mem_of_getElem? found
  have nesting_mem : bodyNesting combinator ∈ book.combinators.toList.map bodyNesting :=
    List.mem_map_of_mem mem
  unfold height
  generalize book.combinators.toList.map bodyNesting = nestings at nesting_mem ⊢
  induction nestings with
  | nil => cases nesting_mem
  | cons first nestings ih =>
      rw [List.foldr_cons]
      rcases List.mem_cons.mp nesting_mem with rfl | rest_mem
      · exact Nat.le_max_left _ _
      · exact Nat.le_trans (ih rest_mem) (Nat.le_max_right _ _)

/-- A session in which combinators have not been used is in the state in which it has been
described, and none is being compiled. -/
theorem Unused.stage (unused : book.Unused) :
    book.Stage (Finset.range book.combinators.size) book := by
  have no_caches (number : Nat) (value : TypedTerm) : ¬ book.Caches number value := by
    rintro ⟨combinator, found, kept⟩
    obtain ⟨serial, name, signature, body, rfl, -⟩ := unused.wraps found
    cases kept
  constructor
  · exact unused.sound
  · rfl
  · exact Nat.le_refl _
  · intro number combinator found
    refine ⟨combinator, found, rfl, rfl, ?_⟩
    have inside := (Array.getElem?_eq_some_iff.mp found).1
    obtain ⟨serial, name, signature, body, rfl, -⟩ := unused.wraps found
    simp [inside]
  · exact id
  · intro number mem
    obtain ⟨value, caches⟩ := mem_kept_iff.mp mem
    exact absurd caches (no_caches number value)
  · intro number value caches
    exact absurd caches (no_caches number value)

/-! ## Marks -/

section Changing

variable {change : Combinator → Combinator}

theorem caches_changed_iff (change : Combinator → Combinator)
    (same : ∀ combinator, (change combinator).term? = combinator.term?) {other : Nat}
    {value : TypedTerm} :
    (before.changed number change).Caches other value ↔ before.Caches other value := by
  by_cases same_number : other = number
  · subst same_number
    simp only [Caches, changed, Array.getElem?_modify, if_true, Option.map_eq_some_iff]
    constructor
    · rintro ⟨_, ⟨combinator, found, rfl⟩, kept⟩
      exact ⟨combinator, found, (same combinator).symm.trans kept⟩
    · rintro ⟨combinator, found, kept⟩
      exact ⟨_, ⟨combinator, found, rfl⟩, (same combinator).trans kept⟩
  · simp only [Caches, changed_other same_number]

/-- One combinator is changed, but not what it wraps. -/
theorem Stage.changed (stage : book.Stage idle before) {others : Finset Nat}
    (sources_same : ∀ combinator, (change combinator).source = combinator.source)
    (names_same : ∀ combinator, (change combinator).name? = combinator.name?)
    (marked : ∀ combinator, (change combinator).compiling = false ↔ number ∈ others)
    (others_same : ∀ other, other ≠ number → (other ∈ idle ↔ other ∈ others))
    (kept_others : (before.changed number change).kept ⊆ others)
    (right : ∀ {other : Nat} {value : TypedTerm},
      (before.changed number change).Caches other value →
        book.settle (before.changed number change).kept other = .ok value) :
    book.Stage others (before.changed number change) where
  sound := stage.sound
  session_eq := stage.session_eq
  serial_le := stage.serial_le
  combinator {other combinator} found := by
    obtain ⟨held, held_found, source_eq, name_eq, mark_iff⟩ := stage.combinator found
    by_cases same_number : other = number
    · subst same_number
      exact ⟨change held, changed_same held_found, (sources_same held).trans source_eq,
        (names_same held).trans name_eq, marked held⟩
    · exact ⟨held, (changed_other same_number).trans held_found, source_eq, name_eq,
        mark_iff.trans (others_same other same_number)⟩
  absent {other} absent := by
    by_cases same_number : other = number
    · subst same_number
      simp [Workbench.changed, Array.getElem?_modify, stage.absent absent]
    · exact (changed_other same_number).trans (stage.absent absent)
  kept_idle := kept_others
  right := right

/-- The mark of one combinator is changed. -/
theorem Stage.marked (stage : book.Stage idle before) {others : Finset Nat}
    (sources_same : ∀ combinator, (change combinator).source = combinator.source)
    (names_same : ∀ combinator, (change combinator).name? = combinator.name?)
    (terms_same : ∀ combinator, (change combinator).term? = combinator.term?)
    (marked : ∀ combinator, (change combinator).compiling = false ↔ number ∈ others)
    (others_same : ∀ other, other ≠ number → (other ∈ idle ↔ other ∈ others))
    (kept_others : before.kept ⊆ others) : book.Stage others (before.changed number change) := by
  have kept_eq : (before.changed number change).kept = before.kept := by
    ext other
    simp only [mem_kept_iff, caches_changed_iff change terms_same]
  refine stage.changed sources_same names_same marked others_same ?_ fun caches => ?_
  · rw [kept_eq]
    exact kept_others
  · rw [kept_eq]
    exact stage.right ((caches_changed_iff change terms_same).mp caches)

end Changing

theorem Stage.begun (stage : book.Stage idle before)
    (unkept : ∀ value, ¬ before.Caches number value) :
    book.Stage (idle.erase number) (before.changed number .begun) := by
  refine stage.marked (fun _ => rfl) (fun _ => rfl) (fun _ => rfl) (fun _ => ?_) ?_ ?_
  · simp [Combinator.begun]
  · intro other apart
    simp [apart]
  · intro other mem
    refine Finset.mem_erase.mpr ⟨?_, stage.kept_idle mem⟩
    rintro rfl
    obtain ⟨value, caches⟩ := mem_kept_iff.mp mem
    exact unkept value caches

theorem Stage.abandoned (stage : book.Stage (idle.erase number) after) (inside : number ∈ idle) :
    book.Stage idle (after.changed number .abandoned) := by
  refine stage.marked (fun _ => rfl) (fun _ => rfl) (fun _ => rfl) (fun _ => ?_) ?_ ?_
  · simp [Combinator.abandoned, inside]
  · intro other apart
    simp [apart]
  · exact stage.kept_idle.trans (Finset.erase_subset number idle)

/-- What is kept once a combinator has been compiled to a term. -/
theorem caches_completed_iff (found : before.combinators[number]? = some combinator)
    {value answer : TypedTerm} {other : Nat} :
    (before.changed number (.completed value)).Caches other answer ↔
      if other = number then answer = value else before.Caches other answer := by
  split
  · rename_i same_number
    subst same_number
    simp [Caches, changed_same found, Combinator.completed, eq_comm]
  · rename_i apart
    simp only [Caches, changed_other apart]

/-- A combinator keeps the term to which its draft comes, where the terms of those that the draft
asks for are kept. -/
theorem Stage.completed (stage : book.Stage (idle.erase number) after) (inside : number ∈ idle)
    (found : after.combinators[number]? = some combinator) {value : TypedTerm} {count : Nat}
    (ran : (book.draft number).run (book.settle (idle.erase number)) book.nextSerial =
      .ok (value, count))
    (retains : book.Retains (idle.erase number) (book.asks idle number) after) :
    book.Stage idle (after.changed number (.completed value)) := by
  have outside : number ∉ after.kept := fun mem =>
    Finset.notMem_erase number idle (stage.kept_idle mem)
  have kept_eq : (after.changed number (.completed value)).kept = insert number after.kept := by
    ext other
    simp only [mem_kept_iff, caches_completed_iff found, Finset.mem_insert]
    by_cases same_number : other = number <;> simp [same_number]
  have settled : book.settle (insert number after.kept) number = .ok value := by
    refine settle_eq_ok_iff.mpr ⟨Finset.mem_insert_self number after.kept, count, ?_⟩
    -- The draft asks only for terms that are kept by now, and these settle without the others.
    rw [Finset.erase_insert outside, ← ran]
    refine Draft.run_congr fun other mem => ?_
    obtain ⟨answer, answered⟩ := Draft.answered_of_run_ok ran mem
    rw [answered]
    exact stage.right (retains other mem _ _ .now answer answered)
  refine stage.changed (fun _ => rfl) (fun _ => rfl) (fun _ => ?_) ?_ ?_ fun caches => ?_
  · simp [Combinator.completed, inside]
  · intro other apart
    simp [apart]
  · rw [kept_eq]
    exact Finset.insert_subset inside (stage.kept_idle.trans (Finset.erase_subset number idle))
  · rename_i other answer
    rw [caches_completed_iff found] at caches
    rw [kept_eq]
    split at caches
    · rename_i same_number
      rw [same_number, caches]
      exact settled
    · exact settle_mono (Finset.subset_insert number after.kept) (stage.right caches)

end Workbench

/-! ## Asking -/

section Asking

variable {book : Workbench} {idle : Finset Nat} {depth : Nat} {world : World book.nextSerial}

/-- An expression is taken as a term if no variables are left in it. -/
theorem follows_close {object : Object} {expr : Open Empty} (placed : world.Placed object expr) :
    Follows book idle world (fun _ value expected => value = expected) (close object)
      (Draft.close expr) := by
  intro before stage fits
  have vars := placed.stands.freeVars fun x x_occurs y y_occurs same =>
    fits.var_injective (placed.drawn x x_occurs) (placed.drawn y y_occurs) same
  have names_eq : ((varsOf expr).map world.var).map Var.name = (varsOf expr).map Var.name := by
    rw [List.map_map]
    rfl
  have refused (open_object : close object = do
      let xs ← freeVars object
      Effect.raise (.unbound ((xs.map Var.name).mergeSort (· ≤ ·)))) :
      close object =
        Effect.raise (.unbound (((varsOf expr).map Var.name).mergeSort (· ≤ ·))) := by
    rw [open_object, freeVars, vars, ← names_eq]
    rfl
  cases placed.stands with
  | term value =>
      have closed : Follows book idle world (fun _ value expected => value = expected)
          (close (.term value)) (Draft.close (.term value)) := .pure rfl
      exact closed before stage fits
  | var x =>
      rw [refused rfl]
      exact Follows.raise _ before stage fits
  | app fn_stands arg_stands =>
      rw [refused rfl]
      exact Follows.raise _ before stage fits

/-- A function is compiled to a term as its draft says. -/
theorem follows_compile (settles : Settles book idle depth) (named : book.NamesPlain) (serial : Nat)
    (name : String) (signature : Signature TypedTerm) {body : Expr}
    (symbolic : body.isSymbolic = true) {steps : Nat} (enough : body.nesting + depth ≤ steps) :
    Follows book idle world (fun _ value expected => value = expected)
      (compile (perform steps) (.foreign (.function serial name (signature.map .term) body [])))
      (book.functionDraft (signature.map .term) body) := by
  have compiled : Follows book idle world World.Placed
      (compileFunction (perform steps) name (signature.map .term) body [])
      ((signature.map .term).draft fun bound => body.draft book.part (bound ++ [])) :=
    follows_compileFunction settles .nil enough fun surrounds =>
      follows_evaluate settles named body symbolic surrounds enough
  simp only [List.append_nil] at compiled
  exact compiled.bind fun _ _ _ _ placed => follows_close placed

/-- The work returns the term that is the answer, or it fails for the reason that is. -/
def Gives (work : Work TypedTerm) (before after : Workbench) : Except Failure TypedTerm → Prop
  | .ok value => work.Returns before value after
  | .error failure => work.Fails before (.raised failure) after

/-- From the state the work gives what the combinator settles to, and the terms that are found on
the way are kept. -/
def Yields (book : Workbench) (idle : Finset Nat) (number : Nat) (work : Work TypedTerm)
    (before : Workbench) : Prop :=
  ∃ after, book.Stage idle after ∧ before.Onward after ∧ book.Retains idle [number] after ∧
    Gives work before after (book.settle idle number)

/-- Work that yields what the combinator settles to follows the draft that asks for it. -/
theorem follows_ask {number : Nat} {work : Work TypedTerm}
    (yields : ∀ before, book.Stage idle before → Yields book idle number work before) :
    Follows book idle world (fun _ value expected => value = expected) work (Draft.ask number) := by
  intro before stage fits
  obtain ⟨after, after_stage, onward, retains, given⟩ := yields before stage
  refine ⟨after, after_stage, onward, ?_⟩
  cases settled : book.settle idle number with
  | error failure =>
      rw [settled] at given
      rw [Draft.ask, Draft.asked_asks_error settled, Draft.run_asks_error settled]
      exact ⟨retains, given⟩
  | ok value =>
      rw [settled] at given
      rw [Draft.ask, Draft.asked_asks_ok settled, Draft.run_asks_ok settled]
      exact ⟨retains, value, world, given, .refl world, rfl, fits.later onward.serial_le, rfl⟩

variable {before : Workbench} {number : Nat} {combinator : Combinator}

/-- Where a term is kept, so are those of all combinators to which its compilation comes. -/
theorem Workbench.Stage.retains_of_caches (stage : book.Stage idle before) {value : TypedTerm}
    (caches : before.Caches number value) : book.Retains idle [number] before := by
  intro other mem inner last visits answer settled
  obtain rfl := List.mem_singleton.mp mem
  have last_mem := Workbench.mem_of_settle (stage.right caches) visits.reached
  obtain ⟨kept_value, last_caches⟩ := Workbench.mem_kept_iff.mp last_mem
  have kept_subset : before.kept ⊆ before.kept ∪ inner := Finset.subset_union_left
  have inner_subset : inner ⊆ before.kept ∪ inner := Finset.subset_union_right
  have kept_settled := Workbench.settle_mono kept_subset (stage.right last_caches)
  cases kept_settled.symm.trans (Workbench.settle_mono inner_subset settled)
  exact last_caches

/-- Nothing is found on the way to a refusal at once. -/
theorem retains_of_refused {failure : Failure} (refused : book.settle idle number = .error failure)
    (at_once : number ∈ idle → book.asks idle number = []) (after : Workbench) :
    book.Retains idle [number] after := by
  intro other mem inner last visits answer settled
  obtain rfl := List.mem_singleton.mp mem
  cases visits with
  | now => cases refused.symm.trans settled
  | later inside asked _ =>
      rw [at_once inside] at asked
      cases asked

/-! ### Compiling a combinator

The combinator is not being compiled and has no term, and while it is being compiled the function
that it wraps is compiled as the draft says. -/

/-- What is kept stays so when a combinator has been marked and others have been compiled. -/
theorem caches_of_begun {after : Workbench}
    (onward : (before.changed number .begun).Onward after) {other : Nat} {value : TypedTerm}
    (caches : before.Caches other value) : after.Caches other value :=
  onward.keeps ((Workbench.caches_changed_iff .begun fun _ => rfl).mpr caches)

section Compiling

variable {after : Workbench} {original : Combinator} {steps : Nat}
  (book_found : book.combinators[number]? = some original) (inside : number ∈ idle)
  (found : before.combinators[number]? = some combinator) (unkept : combinator.term? = none)
  (unmarked : combinator.compiling = false) (stage : book.Stage (idle.erase number) after)
  (onward : (before.changed number .begun).Onward after)
  (retains : book.Retains (idle.erase number) (book.asks idle number) after)

include book_found inside found unkept unmarked stage onward retains

/-- A combinator that is compiled in vain yields the failure of its draft. -/
theorem yields_abandoned {failure : Failure}
    (ran : (book.draft number).run (book.settle (idle.erase number)) book.nextSerial =
      .error failure)
    (failed : (compile (perform steps) combinator.source).Fails (before.changed number .begun)
      (.raised failure) after) :
    Yields book idle number (termOf (perform steps) number) before := by
  have settled : book.settle idle number = .error failure := by
    rw [Workbench.settle_idle book_found inside, Draft.outcome, ran]
  have keeps {other : Nat} {value : TypedTerm} (caches : after.Caches other value) :
      (after.changed number .abandoned).Caches other value :=
    (Workbench.caches_changed_iff .abandoned fun _ => rfl).mpr caches
  have outcome_eq : (termOf (perform steps) number).outcome before = _ :=
    outcome_termOf_idle found unkept unmarked
  rw [show ExceptT.outcome _ _ = _ from failed] at outcome_eq
  rw [Yields, settled]
  refine ⟨after.changed number .abandoned, stage.abandoned inside,
    ⟨onward.serial_le, fun caches => keeps (caches_of_begun onward caches)⟩, ?_, outcome_eq⟩
  intro other mem inner last visits answer last_settled
  obtain rfl := List.mem_singleton.mp mem
  cases visits with
  | now => cases settled.symm.trans last_settled
  | later _ asked visits => exact keeps (retains _ asked inner last visits answer last_settled)

/-- A combinator that is compiled to a term yields the result of its draft. -/
theorem yields_completed {value : TypedTerm} {count : Nat}
    (ran : (book.draft number).run (book.settle (idle.erase number)) book.nextSerial =
      .ok (value, count))
    (returned : (compile (perform steps) combinator.source).Returns
      (before.changed number .begun) value after) :
    Yields book idle number (termOf (perform steps) number) before := by
  have settled : book.settle idle number = .ok value :=
    Workbench.settle_eq_ok_iff.mpr ⟨inside, count, ran⟩
  have outcome_eq : (termOf (perform steps) number).outcome before = _ :=
    outcome_termOf_idle found unkept unmarked
  rw [show ExceptT.outcome _ _ = _ from returned] at outcome_eq
  obtain ⟨held, after_found, -⟩ := stage.combinator book_found
  have completed := stage.completed inside after_found ran retains
  have caches_value : (after.changed number (.completed value)).Caches number value := by
    rw [Workbench.caches_completed_iff after_found, if_pos rfl]
  rw [Yields, settled]
  refine ⟨after.changed number (.completed value), completed,
    ⟨onward.serial_le, fun {other answer} caches => ?_⟩,
    completed.retains_of_caches caches_value, outcome_eq⟩
  rw [Workbench.caches_completed_iff after_found]
  split
  · rename_i same_number
    subst same_number
    obtain ⟨_, other_found, kept⟩ := caches
    cases found.symm.trans other_found
    cases unkept.symm.trans kept
  · exact caches_of_begun onward caches

end Compiling

/-- A combinator that is neither being compiled nor has a term yields what its draft comes to. -/
theorem yields_idle {original : Combinator} {steps : Nat} (unused : book.Unused)
    (settles : Settles book (idle.erase number) depth) (stage : book.Stage idle before)
    (inside : number ∈ idle) (book_found : book.combinators[number]? = some original)
    (found : before.combinators[number]? = some combinator)
    (source_eq : combinator.source = original.source) (unkept : combinator.term? = none)
    (unmarked : combinator.compiling = false) (enough : depth + book.height ≤ steps) :
    Yields book idle number (termOf (perform steps) number) before := by
  have no_term (value : TypedTerm) : ¬ before.Caches number value := by
    rintro ⟨_, other_found, kept⟩
    cases found.symm.trans other_found
    cases unkept.symm.trans kept
  have nesting_le : Workbench.bodyNesting original ≤ book.height := Workbench.le_height book_found
  obtain ⟨serial, name, signature, body, rfl, symbolic⟩ := unused.wraps book_found
  have body_enough : body.nesting + depth ≤ steps := by
    have body_le : body.nesting ≤ book.height := nesting_le
    omega
  have draft_eq : book.draft number = book.functionDraft (signature.map .term) body := by
    rw [Workbench.draft, book_found, ← Signature.drafted_map_term]
  have compiled : Follows book (idle.erase number) (World.empty book.nextSerial)
      (fun _ value expected => value = expected) (compile (perform steps) combinator.source)
      (book.draft number) := by
    rw [source_eq, draft_eq]
    exact follows_compile settles unused.named serial name signature symbolic body_enough
  obtain ⟨after, after_stage, onward, retains, ended⟩ :=
    compiled _ (stage.begun no_term) (World.fits_empty stage.serial_le)
  dsimp only [World.empty] at retains ended
  cases ran : (book.draft number).run (book.settle (idle.erase number)) book.nextSerial with
  | error failure =>
      rw [ran] at ended
      exact yields_abandoned book_found inside found unkept unmarked after_stage onward retains ran
        ended
  | ok pair =>
      rw [ran] at ended
      obtain ⟨value, -, returned, -, -, -, rfl⟩ := ended
      exact yields_completed book_found inside found unkept unmarked after_stage onward retains ran
        returned

/-- Asking for the term of a combinator yields what it settles to if that is so for all combinators
while it is being compiled. -/
theorem yields_termOf (unused : book.Unused) (stage : book.Stage idle before) {steps : Nat}
    (settles : number ∈ idle → Settles book (idle.erase number) depth ∧
      depth + book.height ≤ steps) :
    Yields book idle number (termOf (perform steps) number) before := by
  cases found : book.combinators[number]? with
  | none =>
      have settled : book.settle idle number = _ := Workbench.settle_absent found
      have no_draft : book.draft number = .failed .noAttribute := by
        rw [Workbench.draft, found]
      have asks_nothing : book.asks idle number = [] := by
        rw [Workbench.asks, no_draft, Draft.asked]
      rw [Yields, settled]
      exact ⟨before, stage, .refl before, retains_of_refused settled (fun _ => asks_nothing) before,
        outcome_termOf_absent (stage.absent found)⟩
  | some combinator =>
      obtain ⟨held, held_found, source_eq, name_eq, mark_iff⟩ := stage.combinator found
      cases kept : held.term? with
      | some value =>
          have caches : before.Caches number value := ⟨held, held_found, kept⟩
          rw [Yields, stage.settle_of_caches caches]
          exact ⟨before, stage, .refl before, stage.retains_of_caches caches,
            outcome_termOf_kept held_found kept⟩
      | none =>
          by_cases inside : number ∈ idle
          · obtain ⟨later_settles, enough⟩ := settles inside
            exact yields_idle unused later_settles stage inside found held_found source_eq kept
              (mark_iff.mpr inside) enough
          · have refusal_eq : combinator.refusal = held.refusal := by
              rw [Combinator.refusal, Combinator.refusal, name_eq]
            have settled := Workbench.settle_compiling found inside
            have marked : held.compiling = true := by simpa [inside] using mark_iff
            have retains := retains_of_refused settled (fun mem => absurd mem inside) before
            rw [Yields, settled, refusal_eq]
            exact ⟨before, stage, .refl before, retains,
              outcome_termOf_compiling held_found kept marked⟩

/-- Asking for terms gives what combinators settle to, granted as many nested steps for each one
that is not being compiled as the most deeply nested body needs. -/
theorem settles_of_unused (unused : book.Unused) (idle : Finset Nat) :
    Settles book idle (idle.card * book.height) := by
  induction idle using Finset.strongInduction with
  | H idle ih =>
      intro world steps enough number
      refine follows_ask fun before stage => yields_termOf unused stage fun inside =>
        ⟨ih (idle.erase number) (Finset.erase_ssubset inside), ?_⟩
      calc
        (idle.erase number).card * book.height + book.height =
            ((idle.erase number).card + 1) * book.height := (Nat.succ_mul _ _).symm
        _ = idle.card * book.height := by rw [Finset.card_erase_add_one inside]
        _ ≤ steps := enough

end Asking

end Lambda
end Combinatory
