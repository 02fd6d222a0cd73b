import Combinatory.Proofs.Lambda.Settlement

/-!
# Combinators are compiled once or refused

The terms of combinators are needed when they are asked for, when expressions are evaluated, and
when functions are compiled to terms. However these accesses follow one another in a session, and
whether they fail or not, none leaves a combinator marked as being compiled, and a term that has
been returned once is returned from then on and nothing is done for it.

In a session whose combinators wrap symbolic functions, which may mention one another in any way,
every access comes to an end, and what it gives is the same whatever has been compiled before. It is
refused for recursion exactly if compilation comes back to a combinator that is being compiled. So
no combinator gets a term that mentions itself or from which mentions lead to one that does.
-/

namespace Combinatory

/-- The term that an expression is, if it is closed. -/
def Open.closedTerm? {α : Type} : Open α → Option TypedTerm
  | .term value => some value
  | _ => none

namespace Lambda

/-- The term that a part is, if it is a closed expression. -/
def Part.closedTerm? : Part → Option TypedTerm
  | .expr drafted => drafted.closedTerm?
  | _ => none

/-! ## Accesses -/

/-- Something for which the terms of combinators are needed. -/
inductive Access where
  /-- The term of a combinator is asked for. -/
  | term (number : Nat)
  /-- An expression is evaluated. -/
  | evaluate (expr : Expr)
  /-- A function is compiled to a term. -/
  | compile (name : String) (signature : Signature TypedTerm) (body : Expr)

namespace Access

/-- What is done, granted a number of nested steps. -/
def work (access : Access) (steps : Nat) : Work Object :=
  match access with
  | term number => do return .term (← termOf (perform steps) number)
  | evaluate expr => perform steps (.evaluate [] expr)
  | compile name signature body => do
      let function ← perform steps (.evaluate [] (.function name signature body))
      return .term (← Lambda.compile (perform steps) function)

/-- The term that comes of the access, if what comes of it is closed, or why nothing does. -/
def answer (access : Access) (steps : Nat) (before : Workbench) :
    Except (Interruption Failure) (Option TypedTerm) :=
  ((access.work steps).outcome before).1.map Open.closedTerm?

/-- The state that the access leaves. -/
def leaves (access : Access) (steps : Nat) (before : Workbench) : Workbench :=
  ((access.work steps).outcome before).2

/-- Is it a symbolic expression that is evaluated or the body of the function? -/
def isSymbolic : Access → Bool
  | term _ => true
  | evaluate expr => expr.isSymbolic
  | compile _ _ body => body.isSymbolic

/-- The nesting of the expression or the function. -/
def nesting : Access → Nat
  | term _ => 0
  | evaluate expr => expr.nesting
  | compile _ _ body => body.nesting + 1

/-- A number of nested steps that is enough for the access: those for its expression, and for each
combinator those for the most deeply nested body. -/
def enough (access : Access) (book : Workbench) : Nat :=
  access.nesting + book.combinators.size * book.height

/-- The draft of what comes of the access. -/
def draft (access : Access) (book : Workbench) : Draft Part :=
  match access with
  | term number => do return .expr (.term (← Draft.ask number))
  | evaluate expr => expr.draft book.part []
  | compile _ signature body => do
      return .expr (.term (← book.functionDraft (signature.map .term) body))

end Access

namespace Workbench

/-- The numbers of the combinators. -/
def numbers (book : Workbench) : Finset Nat :=
  Finset.range book.combinators.size

/-- A state that a session gets to from the first one, request by request and access by access. -/
inductive Continues (first : Workbench) : Workbench → Prop
  /-- Nothing has been done. -/
  | refl : Continues first first
  /-- A request has been worked through. -/
  | request {before : Workbench} (continues : Continues first before) (steps : Nat)
      (request : Request) : Continues first ((request.run steps).run before).2
  /-- An access has been made, with a result or without one. -/
  | access {before : Workbench} (continues : Continues first before) (access : Access)
      (steps : Nat) : Continues first (access.leaves steps before)

/-- A state that a session gets to by symbolic accesses that are granted enough steps. Meanwhile
other things may be done that leave combinators and named objects alone. -/
inductive Used (book : Workbench) : Workbench → Prop
  /-- No combinator has been used. -/
  | unused : Used book book
  /-- An access has been made, with a result or without one. -/
  | access {before : Workbench} (used : Used book before) {access : Access}
      (symbolic : access.isSymbolic = true) {steps : Nat} (enough : access.enough book ≤ steps) :
      Used book (access.leaves steps before)
  /-- Something else has been done. -/
  | apart {before after : Workbench} (used : Used book before) (advances : before.Advances after) :
      Used book after

end Workbench

namespace Access

variable {book before : Workbench} {access : Access} {steps : Nat}

/-- The combinators for whose terms the access asks. -/
def asked (access : Access) (book : Workbench) : List Nat :=
  (access.draft book).asked (book.settle book.numbers) book.nextSerial

/-- What comes of the access whatever has been compiled before. -/
def settled (access : Access) (book : Workbench) :
    Except (Interruption Failure) (Option TypedTerm) :=
  match (access.draft book).outcome (book.settle book.numbers) book.nextSerial with
  | .ok part => .ok part.closedTerm?
  | .error failure => .error (.raised failure)

/-- The access comes to asking for the term of the last combinator, where the listed combinators are
not being compiled. -/
def Visits (access : Access) (book : Workbench) (inner : Finset Nat) (last : Nat) : Prop :=
  ∃ number ∈ access.asked book, book.Visits book.numbers number inner last

/-- The access comes to asking for the term of a combinator of the name that is being compiled. -/
def Reenters (access : Access) (book : Workbench) (name : String) : Prop :=
  ∃ inner last, access.Visits book inner last ∧ last ∉ inner ∧ book.HasName last name

theorem keeps_work {law : Workbench → Workbench → Prop} [Law law] (access : Access) (steps : Nat) :
    Keeps law (access.work steps) := by
  have performs (task : Task) : Keeps law (perform steps task) := keeps_perform steps task
  cases access with
  | term number => exact (keeps_termOf performs number).bind fun _ => keeps_pure _
  | evaluate expr => exact performs _
  | compile name signature body =>
      exact (performs _).bind fun function => (keeps_compile performs function).bind
        fun _ => keeps_pure _

variable {idle : Finset Nat} {depth : Nat} {world : World book.nextSerial}

/-- An object and the part that it embodies are the same closed term, or neither is closed. -/
theorem closedTerm?_eq {expr : Expr} {object : Object} {part : Part}
    (embodies : Embodies book idle depth world expr object part) :
    object.closedTerm? = part.closedTerm? := by
  cases embodies with
  | expr placed => cases placed.stands <;> rfl
  | combinator | datum | function => rfl

/-- An access follows its draft. -/
theorem follows_work (unused : book.Unused) (access : Access)
    (symbolic : access.isSymbolic = true) (enough : access.enough book ≤ steps) :
    Follows book book.numbers world
      (fun _ object part => object.closedTerm? = part.closedTerm?) (access.work steps)
      (access.draft book) := by
  have settles : Settles book book.numbers (book.combinators.size * book.height) := by
    rw [← Finset.card_range book.combinators.size]
    exact settles_of_unused unused book.numbers
  cases access with
  | term number =>
      have steps_enough : book.combinators.size * book.height ≤ steps := by
        rwa [Access.enough, nesting, Nat.zero_add] at enough
      refine (settles steps_enough number).bind fun _ value expected _ same => ?_
      rw [same]
      exact .pure rfl
  | evaluate expr =>
      have followed : Follows book book.numbers world _ (perform steps (.evaluate [] expr)) _ :=
        follows_evaluate settles unused.named expr symbolic .nil enough
      exact followed.imp fun _ _ _ embodies => closedTerm?_eq embodies
  | compile name signature body =>
      obtain ⟨fewer, rfl⟩ : ∃ fewer, steps = fewer + 1 := by
        rw [Access.enough, nesting] at enough
        exact ⟨steps - 1, by omega⟩
      have body_enough : body.nesting + book.combinators.size * book.height ≤ fewer + 1 := by
        rw [Access.enough, nesting] at enough
        omega
      simp only [work, perform, evaluateExpr, bind_assoc, pure_bind]
      refine .after copies_nextSerial fun serial => ?_
      refine (follows_compile settles unused.named serial name signature symbolic
        body_enough).bind fun _ value expected _ same => ?_
      rw [same]
      exact .pure rfl

/-- What comes of an access and what it leaves, from every state of a session in which no combinator
is being compiled. -/
theorem settles (unused : book.Unused) (stage : book.Stage book.numbers before)
    (symbolic : access.isSymbolic = true) (enough : access.enough book ≤ steps) :
    access.answer steps before = access.settled book ∧
      book.Stage book.numbers (access.leaves steps before) ∧
        book.Retains book.numbers (access.asked book) (access.leaves steps before) := by
  have followed : Follows book book.numbers (World.empty book.nextSerial) _ _ _ :=
    follows_work unused access symbolic enough
  obtain ⟨after, after_stage, -, retains, ended⟩ :=
    followed before stage (World.fits_empty stage.serial_le)
  dsimp only [World.empty] at ended
  unfold answer settled leaves Draft.outcome
  cases ran : (access.draft book).run (book.settle book.numbers) book.nextSerial with
  | error failure =>
      rw [ran] at ended
      rw [show (access.work steps).outcome before = _ from ended]
      exact ⟨rfl, after_stage, retains⟩
  | ok pair =>
      obtain ⟨part, count⟩ := pair
      rw [ran] at ended
      obtain ⟨object, -, returned, -, -, -, same⟩ := ended
      rw [show (access.work steps).outcome before = _ from returned]
      exact ⟨congrArg Except.ok same, after_stage, retains⟩

theorem settled_ne_unfinished : access.settled book ≠ .error .unfinished := by
  unfold settled
  split
  · rintro ⟨⟩
  · rintro ⟨⟩

theorem mem_asked_term (number : Nat) (book : Workbench) : number ∈ (term number).asked book := by
  simp [asked, draft, Draft.ask, Draft.asked]

/-- Asking for the term of a combinator gives what the combinator settles to. -/
theorem settled_term (book : Workbench) (number : Nat) :
    (term number).settled book =
      match book.settle book.numbers number with
      | .ok value => .ok (some value)
      | .error failure => .error (.raised failure) := by
  have draft_eq : (term number).draft book =
      .asks number fun value => .done (.expr (.term value)) := rfl
  unfold settled Draft.outcome
  rw [draft_eq]
  cases found : book.settle book.numbers number with
  | error failure => rw [Draft.run_asks_error found]
  | ok value =>
      rw [Draft.run_asks_ok found]
      rfl

theorem settled_term_eq_ok_iff {number : Nat} {value : TypedTerm} :
    (term number).settled book = .ok (some value) ↔
      book.settle book.numbers number = .ok value := by
  rw [settled_term]
  cases book.settle book.numbers number <;> simp

/-- A draft of an access does not fail by itself because a combinator is being compiled. -/
theorem within_draft (access : Access) (book : Workbench) :
    (access.draft book).Within (fun _ => True) (Part.Within fun _ => True) := by
  cases access with
  | term number => exact ⟨trivial, fun _ => trivial⟩
  | evaluate expr =>
      exact expr.within_draft [] fun free _ _ => Workbench.within_part fun _ _ => trivial
  | compile name signature body =>
      exact (Workbench.within_functionDraft fun _ _ _ _ _ => trivial).bind fun _ _ => trivial

/-- An access is refused for recursion exactly if it comes to asking for the term of a combinator
that is being compiled, of which the refusal gives the name. -/
theorem settled_eq_recursive_iff {name : String} :
    access.settled book = .error (.raised (.recursive name)) ↔ access.Reenters book name := by
  have settled_iff : access.settled book = .error (.raised (.recursive name)) ↔
      (access.draft book).run (book.settle book.numbers) book.nextSerial =
        .error (.recursive name) := by
    unfold settled Draft.outcome
    cases (access.draft book).run (book.settle book.numbers) book.nextSerial <;> simp
  rw [settled_iff]
  constructor
  · intro refused
    obtain ⟨number, mem, number_refused⟩ :=
      (within_draft access book).asked_of_run_recursive refused
    obtain ⟨inner, last, visits, compiling, named⟩ :=
      Workbench.settle_eq_recursive_iff.mp number_refused
    exact ⟨inner, last, ⟨number, mem, visits⟩, compiling, named⟩
  · rintro ⟨inner, last, ⟨number, mem, visits⟩, compiling, named⟩
    exact Draft.run_error_of_asked mem
      (Workbench.settle_eq_recursive_iff.mpr ⟨inner, last, visits, compiling, named⟩)

/-- A combinator to which an access comes back while it is being compiled mentions itself, directly
or through others. -/
theorem Reenters.cycle {name : String} (reenters : access.Reenters book name) :
    ∃ last, book.HasName last name ∧ Relation.TransGen book.Mentions last last := by
  obtain ⟨inner, last, ⟨number, mem, visits⟩, compiling, named⟩ := reenters
  refine ⟨last, named, (visits.cycle compiling).resolve_left fun outside => outside ?_⟩
  obtain ⟨combinator, found, -⟩ := named
  exact Finset.mem_range.mpr (Array.getElem?_eq_some_iff.mp found).1

end Access

/-! ## Sessions -/

namespace Workbench

variable {book first bench : Workbench}

theorem Continues.progresses (continues : first.Continues bench) : first.Progresses bench := by
  induction continues with
  | refl => exact progresses_of_eq rfl
  | request _ steps request ih => exact ih.trans (keeps_run_request steps request _)
  | access _ access steps ih => exact ih.trans (access.keeps_work steps _)

theorem quiet_initial : initial.Quiet := by
  intro number combinator found
  simp [initial] at found

/-- No combinator is being compiled where all are listed. -/
theorem Stage.quiet (stage : book.Stage book.numbers bench) : bench.Quiet := by
  intro number combinator found
  cases book_found : book.combinators[number]? with
  | none => cases (stage.absent book_found).symm.trans found
  | some original =>
      obtain ⟨held, held_found, -, -, mark_iff⟩ := stage.combinator book_found
      cases found.symm.trans held_found
      exact mark_iff.mpr (Finset.mem_range.mpr (Array.getElem?_eq_some_iff.mp book_found).1)

theorem Used.stage (unused : book.Unused) (used : book.Used bench) :
    book.Stage book.numbers bench := by
  induction used with
  | unused => exact unused.stage
  | access _ symbolic enough ih => exact (Access.settles unused ih symbolic enough).2.1
  | apart _ advances ih => exact ih.advances advances

theorem unused_initial : initial.Unused where
  sound := Registry.sound_initial
  named name object found := by simp [initial] at found
  wraps found := by simp [initial] at found

theorem Plain.later {object : Object} (plain : book.Plain object)
    (serial_le : book.nextSerial ≤ bench.nextSerial) : bench.Plain object := by
  cases plain with
  | expr found drawn =>
      exact .expr found fun x occurs => Nat.lt_of_lt_of_le (drawn x occurs) serial_le
  | combinator number name? => exact .combinator number name?
  | datum place value => exact .datum place value

/-- A combinator that has just been defined has not been used. -/
theorem Unused.define (unused : book.Unused) (name : String) (signature : Signature TypedTerm)
    {body : Expr} (symbolic : body.isSymbolic = true) (steps : Nat) :
    Unused (((Request.define name signature body).run (steps + 1)).run book).2 where
  sound := unused.sound
  named other object found := by
    have found : ((name, Open.foreign (.combinator book.combinators.size (some name))) ::
      book.session).lookup other = some object := found
    rw [List.lookup_cons] at found
    split at found
    · cases found
      exact .combinator _ _
    · exact (unused.named other object found).later (Nat.le_succ _)
  wraps {number combinator} found := by
    have found : (book.combinators.push
      { source := .foreign (.function book.nextSerial name (signature.map .term) body []),
        name? := some name, compiling := false, term? := none })[number]? = some combinator := found
    rw [Array.getElem?_push] at found
    split at found
    · cases found
      exact ⟨_, name, signature, body, rfl, symbolic⟩
    · exact unused.wraps found

end Workbench

/-! ## Caching and recursion -/

/-- A term that has been returned is returned from then on. -/
theorem termOf_returns_again {steps number : Nat} {before after later : Workbench}
    {value : TypedTerm} (returned : (termOf (perform steps) number).Returns before value after)
    (continues : after.Continues later) (granted : Task → Work Object) :
    (termOf granted number).Returns later value later := by
  have performs (task : Task) : Keeps Workbench.Progresses (perform steps task) :=
    keeps_perform steps task
  have caches : after.Caches number value := caches_of_termOf_returns performs returned
  exact termOf_returns_of_caches (caches.progresses continues.progresses)

/-- Nothing is kept for a combinator whose term is asked for in vain, but what was kept stays. -/
theorem caches_of_termOf_fails {steps number : Nat} {before after : Workbench}
    {interruption : Interruption Failure}
    (failed : (termOf (perform steps) number).Fails before interruption after) :
    (∀ value, ¬ after.Caches number value) ∧
      ∀ other value, before.Caches other value → after.Caches other value := by
  have performs (task : Task) : Keeps Workbench.Progresses (perform steps task) :=
    keeps_perform steps task
  have progresses : before.Progresses after := (keeps_termOf performs number).after_fails failed
  exact ⟨not_caches_of_termOf_fails performs failed,
    fun _ _ caches => caches.progresses progresses⟩

/-- A combinator that is being compiled is refused. -/
theorem termOf_refused {number : Nat} {name : String} {before : Workbench}
    {combinator : Combinator} (found : before.combinators[number]? = some combinator)
    (unkept : combinator.term? = none) (compiling : combinator.compiling = true)
    (named : combinator.name? = some name) (granted : Task → Work Object) :
    (termOf granted number).Fails before (.raised (.recursive name)) before := by
  rw [← Workbench.refusal_eq_recursive_iff.mpr named]
  exact outcome_termOf_compiling found unkept compiling

section Sessions

variable {book bench : Workbench} {access : Access} {steps : Nat}

/-- A combinator from which mentions lead to one that mentions itself gets no term. -/
theorem Workbench.Used.unkept_of_cycle (unused : book.Unused) (used : book.Used bench)
    {number other : Nat} (leads : Relation.ReflTransGen book.Mentions number other)
    (cycle : Relation.TransGen book.Mentions other other) (value : TypedTerm) :
    ¬ bench.Caches number value := fun caches =>
  Workbench.settle_ne_ok_of_cycle leads cycle ((used.stage unused).settle_of_caches caches)

/-- A combinator to which an access comes keeps its term if it has one. -/
theorem Access.caches_of_visits (unused : book.Unused) (used : book.Used bench)
    (symbolic : access.isSymbolic = true) (enough : access.enough book ≤ steps)
    {inner : Finset Nat} {last : Nat} {value : TypedTerm} (visits : access.Visits book inner last)
    (answered : (Access.term last).answer steps bench = .ok (some value)) :
    (access.leaves steps bench).Caches last value := by
  have stage := used.stage unused
  have last_enough : (Access.term last).enough book ≤ steps := by
    refine Nat.le_trans (Nat.add_le_add_right ?_ _) enough
    exact Nat.zero_le _
  rw [(Access.settles unused stage rfl last_enough).1, Access.settled_term_eq_ok_iff] at answered
  obtain ⟨number, mem, visits⟩ := visits
  have retains := (Access.settles unused stage symbolic enough).2.2
  exact retains number mem inner last visits value (visits.settle_eq answered)

end Sessions

/-- Combinators are compiled once or refused.

* Whatever is done in a session, no combinator is being compiled between two pieces of work.
* A term that has been returned once is returned from then on: the state stays as it is, and no
  task is given to whatever performs tasks.
* A combinator whose term has been asked for in vain is not kept; those that were kept still are.
* A combinator that is asked for while it is being compiled is refused by its name.

In a session whose combinators wrap symbolic functions, from each state that accesses lead to:

* no combinator is kept or given from which mentions lead to one that mentions itself;
* every access comes to an end, and gives the same from all such states;
* the combinators that it comes to and that have terms keep them, even if it fails;
* it is refused for recursion exactly if compilation comes back to a combinator that is being
  compiled, which then mentions itself. -/
theorem combinators_are_compiled_once_or_refused :
    (∀ {bench : Workbench}, Workbench.initial.Continues bench → bench.Quiet) ∧
      (∀ {steps number : Nat} {before after later : Workbench} {value : TypedTerm},
        (termOf (perform steps) number).Returns before value after → after.Continues later →
          ∀ granted, (termOf granted number).Returns later value later) ∧
      (∀ {steps number : Nat} {before after : Workbench} {interruption : Interruption Failure},
        (termOf (perform steps) number).Fails before interruption after →
          (∀ value, ¬ after.Caches number value) ∧
            ∀ other value, before.Caches other value → after.Caches other value) ∧
      (∀ {number : Nat} {name : String} {before : Workbench} {combinator : Combinator},
        before.combinators[number]? = some combinator → combinator.term? = none →
          combinator.compiling = true → combinator.name? = some name →
            ∀ granted, (termOf granted number).Fails before (.raised (.recursive name)) before ∧
              (report granted (.recursive name)).run before =
                (some ("Recursive combinator: " ++ name), before)) ∧
      ∀ {book bench : Workbench}, book.Unused → book.Used bench →
        bench.Quiet ∧
          (∀ {number other : Nat}, Relation.ReflTransGen book.Mentions number other →
            Relation.TransGen book.Mentions other other →
              ∀ value, ¬ bench.Caches number value ∧
                ∀ {steps : Nat}, (Access.term number).enough book ≤ steps →
                  (Access.term number).answer steps bench ≠ .ok (some value)) ∧
          ∀ {access : Access} {steps : Nat}, access.isSymbolic = true →
            access.enough book ≤ steps →
              access.answer steps bench ≠ .error .unfinished ∧
                (∀ {other : Workbench} {granted : Nat}, book.Used other →
                  access.enough book ≤ granted →
                    access.answer granted other = access.answer steps bench) ∧
                (∀ {inner : Finset Nat} {last : Nat} {value : TypedTerm},
                  access.Visits book inner last →
                    (Access.term last).answer steps bench = .ok (some value) →
                      (access.leaves steps bench).Caches last value) ∧
                ∀ {name : String},
                  (access.answer steps bench = .error (.raised (.recursive name)) ↔
                    access.Reenters book name) ∧
                  (access.Reenters book name → ∃ last, book.HasName last name ∧
                    Relation.TransGen book.Mentions last last) := by
  refine ⟨fun continues => Workbench.quiet_initial.progresses continues.progresses,
    termOf_returns_again, caches_of_termOf_fails, ?_, ?_⟩
  · intro number name before combinator found unkept compiling named granted
    exact ⟨termOf_refused found unkept compiling named granted, rfl⟩
  · intro book bench unused used
    have stage := used.stage unused
    refine ⟨stage.quiet, fun leads cycle value =>
      ⟨used.unkept_of_cycle unused leads cycle value, ?_⟩, ?_⟩
    · intro steps enough answered
      rw [(Access.settles unused stage rfl enough).1, Access.settled_term_eq_ok_iff] at answered
      exact Workbench.settle_ne_ok_of_cycle leads cycle answered
    · intro access steps symbolic enough
      obtain ⟨answer_eq, -, -⟩ := Access.settles unused stage symbolic enough
      rw [answer_eq]
      refine ⟨Access.settled_ne_unfinished, fun other_used granted_enough => ?_,
        Access.caches_of_visits unused used symbolic enough,
        Access.settled_eq_recursive_iff, Access.Reenters.cycle⟩
      exact (Access.settles unused (other_used.stage unused) symbolic granted_enough).1

section Session

/-- The state after a combinator with one parameter has been defined. -/
def defined (name : String) (body : Expr) (before : Workbench) : Workbench :=
  (((Request.define name (.plain ["x"]) body).run 1).run before).2

/-- Two combinators that mention each other, one that mentions none, and one that mentions the third
and the first one. -/
def mutualBook : Workbench :=
  (((Workbench.initial |> defined "even" (.form .call [.name "odd", .name "x"]))
    |> defined "odd" (.form .call [.name "even", .name "x"]))
    |> defined "same" (.name "x"))
    |> defined "lead" (.form .app [.name "same", .name "even", .name "x"])

theorem unused_mutualBook : mutualBook.Unused :=
  (((Workbench.unused_initial.define "even" _ rfl 0).define "odd" _ rfl 0).define "same" _ rfl
    0).define "lead" _ rfl 0

theorem settle_same {idle : Finset Nat} (inside : 2 ∈ idle) :
    mutualBook.settle idle 2 = .ok .I :=
  Workbench.settle_eq_ok_iff.mpr ⟨inside, 5, rfl⟩

theorem asks_even (idle : Finset Nat) : 1 ∈ mutualBook.asks idle 0 := by
  obtain ⟨next, draft_eq⟩ : ∃ next : Nat → TypedTerm → Draft TypedTerm,
      mutualBook.draft 0 = .draws fun serial => .asks 1 (next serial) := ⟨_, rfl⟩
  simp [Workbench.asks, draft_eq, Draft.asked]

theorem asks_odd (idle : Finset Nat) : 0 ∈ mutualBook.asks idle 1 := by
  obtain ⟨next, draft_eq⟩ : ∃ next : Nat → TypedTerm → Draft TypedTerm,
      mutualBook.draft 1 = .draws fun serial => .asks 0 (next serial) := ⟨_, rfl⟩
  simp [Workbench.asks, draft_eq, Draft.asked]

theorem asks_lead {idle : Finset Nat} (inside : 2 ∈ idle) :
    2 ∈ mutualBook.asks idle 3 ∧ 0 ∈ mutualBook.asks idle 3 := by
  obtain ⟨next, draft_eq⟩ : ∃ next : Nat → TypedTerm → TypedTerm → Draft TypedTerm,
      mutualBook.draft 3 =
        .draws fun serial => .asks 2 fun value => .asks 0 (next serial value) := ⟨_, rfl⟩
  have settled : mutualBook.settle (idle.erase 3) 2 = .ok .I :=
    settle_same (Finset.mem_erase.mpr ⟨by decide, inside⟩)
  simp [Workbench.asks, draft_eq, Draft.asked, settled]

/-- Asking for the term of a combinator that leads to two that mention each other is refused each
time, and the combinator that is compiled on the way is kept. -/
theorem mutual_recursion_is_refused :
    let lead := Access.term 3
    let after := lead.leaves 8 mutualBook
    mutualBook.Unused ∧ mutualBook.Used mutualBook ∧ lead.isSymbolic = true ∧
      lead.enough mutualBook ≤ 8 ∧
        lead.answer 8 mutualBook = .error (.raised (.recursive "even")) ∧
          lead.answer 8 after = .error (.raised (.recursive "even")) ∧
            after.Quiet ∧ after.Caches 2 .I ∧ ∀ value, ¬ after.Caches 3 value := by
  intro lead after
  have enough : lead.enough mutualBook ≤ 8 := by decide
  have after_used : mutualBook.Used after := .access .unused rfl enough
  have visits_even : lead.Visits mutualBook ((((mutualBook.numbers).erase 3).erase 0).erase 1) 0 :=
    ⟨3, Access.mem_asked_term 3 mutualBook, .later (by decide) (asks_lead (by decide)).2
      (.later (by decide) (asks_even _) (.later (by decide) (asks_odd _) .now))⟩
  have visits_same : lead.Visits mutualBook ((mutualBook.numbers).erase 3) 2 :=
    ⟨3, Access.mem_asked_term 3 mutualBook, .later (by decide) (asks_lead (by decide)).1 .now⟩
  have reenters : lead.Reenters mutualBook "even" :=
    ⟨_, 0, visits_even, by decide, _, rfl, rfl⟩
  have leads : Relation.ReflTransGen mutualBook.Mentions 3 0 :=
    .single (Workbench.mentions_of_mem_asks (asks_lead (Finset.mem_singleton_self 2)).2)
  have cycle : Relation.TransGen mutualBook.Mentions 0 0 :=
    .tail (.single (Workbench.mentions_of_mem_asks (asks_even ∅)))
      (Workbench.mentions_of_mem_asks (asks_odd ∅))
  have same_enough : (Access.term 2).enough mutualBook ≤ 8 := by decide
  have same_answered : (Access.term 2).answer 8 mutualBook = .ok (some .I) := by
    rw [(Access.settles unused_mutualBook unused_mutualBook.stage rfl same_enough).1,
      Access.settled_term_eq_ok_iff]
    exact settle_same (by decide)
  obtain ⟨-, -, -, -, sessions⟩ := combinators_are_compiled_once_or_refused
  obtain ⟨-, -, accesses⟩ := sessions unused_mutualBook .unused
  obtain ⟨-, again, kept, recursive⟩ := accesses (show lead.isSymbolic = true from rfl) enough
  obtain ⟨quiet, cyclic, -⟩ := sessions unused_mutualBook after_used
  have refused := recursive.1.mpr reenters
  exact ⟨unused_mutualBook, .unused, rfl, enough, refused, (again after_used enough).trans refused,
    quiet, kept visits_same same_answered, fun value => (cyclic leads cycle value).1⟩

end Session

end Lambda
end Combinatory
