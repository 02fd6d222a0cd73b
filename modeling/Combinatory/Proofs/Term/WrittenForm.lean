import Combinatory.Proofs.Term.Checking
import Mathlib.Order.Bounds.Basic

/-!
# Reading written terms

A term is written with every application in parentheses. A reader that goes through the text once,
with the applications that are still open on a stack, gets the term back and accepts no other text,
so terms are told apart by how they are written. The parentheses of the text tell the size and the
depth of the term: there is a pair for every application, and they are nested as deep as these.
-/

namespace Combinatory

namespace Term

/-! ## Reading -/

/-- What has been read of an application that is still open. -/
inductive Opened where
  /-- The opening parenthesis. -/
  | application
  /-- The opening parenthesis and the function part. -/
  | applying (fn : Term)

/-- Read the rest of a text, given the term that has just been read, unless one must come next, and
the applications that are open, the innermost one first. -/
def readRest : Option Term → List Opened → List Char → Option Term
  | some term, [], [] => some term
  | none, opened, 'S' :: rest => readRest (some S) opened rest
  | none, opened, 'K' :: rest => readRest (some K) opened rest
  | none, opened, 'I' :: rest => readRest (some I) opened rest
  | none, opened, '(' :: rest => readRest none (.application :: opened) rest
  | some fn, .application :: opened, ' ' :: rest => readRest none (.applying fn :: opened) rest
  | some arg, .applying fn :: opened, ')' :: rest => readRest (some (app fn arg)) opened rest
  | _, _, _ => none

/-- The term that a text is the written form of. -/
def read? (text : String) : Option Term :=
  readRest none [] text.toList

theorem render_app_toList (fn arg : Term) :
    (app fn arg).render.toList =
      '(' :: (fn.render.toList ++ ' ' :: (arg.render.toList ++ [')'])) := by
  simp [render, parenthesize]

/-- A written term is read, whatever comes after it and whatever it is part of. -/
theorem readRest_render (term : Term) (opened : List Opened) (rest : List Char) :
    readRest none opened (term.render.toList ++ rest) = readRest (some term) opened rest := by
  induction term generalizing opened rest with
  | app fn arg fn_ih arg_ih =>
      rw [render_app_toList]
      simp [readRest, fn_ih, arg_ih]
  | _ => rfl

/-- How what has been read of an open application is written. -/
def Opened.text : Opened → List Char
  | application => ['(']
  | applying fn => '(' :: (fn.render.toList ++ [' '])

/-- How what has been read so far is written. -/
def textRead (current : Option Term) (opened : List Opened) : List Char :=
  opened.reverse.flatMap Opened.text ++ current.elim [] fun term => term.render.toList

/-- At every point what has been read and what is left make up the written form of the term that
is accepted in the end. -/
theorem textRead_append_of_readRest {current : Option Term} {opened : List Opened}
    {rest : List Char} {term : Term} (accepted : readRest current opened rest = some term) :
    textRead current opened ++ rest = term.render.toList := by
  fun_induction readRest current opened rest with
  | case1 => simp_all [textRead]
  | case2 _ _ ih | case3 _ _ ih | case4 _ _ ih =>
      simp [← ih accepted, textRead, render]
  | case5 _ _ ih | case6 _ _ _ ih =>
      simp [← ih accepted, textRead, Opened.text]
  | case7 _ _ _ _ ih => simp [← ih accepted, textRead, Opened.text, render_app_toList]
  | case8 => cases accepted

/-- The reader accepts exactly the written forms of terms. -/
theorem read?_eq_some_iff {text : String} {term : Term} :
    read? text = some term ↔ term.render = text := by
  constructor
  · intro accepted
    have whole := textRead_append_of_readRest accepted
    exact String.toList_injective (by simpa [textRead] using whole.symm)
  · rintro rfl
    have read := readRest_render term [] []
    rwa [List.append_nil] at read

theorem render_injective : Function.Injective render := by
  intro left right same
  exact Option.some.inj ((read?_eq_some_iff.mpr same).symm.trans (read?_eq_some_iff.mpr rfl))

/-! ## Parentheses -/

/-- The number of parentheses that are left open. -/
def unclosed (text : List Char) : Nat :=
  text.count '(' - text.count ')'

/-- The text has the given number of pairs of parentheses, which are nested to the given depth. -/
structure Nested (text : List Char) (pairs depth : Nat) : Prop where
  /-- So many parentheses are opened. -/
  opened : text.count '(' = pairs
  /-- As many are closed. -/
  closed : text.count ')' = pairs
  /-- None is closed before it is opened. -/
  ordered : ∀ front, front <+: text → front.count ')' ≤ front.count '('
  /-- The depth is how many are open at once at most. -/
  deepest : IsGreatest (unclosed '' {front | front <+: text}) depth

/-- A character that is no parenthesis. -/
theorem nested_singleton {c : Char} (not_open : c ≠ '(') (not_close : c ≠ ')') :
    Nested [c] 0 0 := by
  have fronts {front : List Char} (start : front <+: [c]) :
      front.count '(' = 0 ∧ front.count ')' = 0 := by
    rcases List.prefix_cons_iff.mp start with rfl | ⟨inner, rfl, nothing⟩
    · simp
    · simp [List.prefix_nil.mp nothing, not_open, not_close]
  refine ⟨(fronts List.prefix_rfl).1, (fronts List.prefix_rfl).2, fun front start => ?_,
    ⟨[], List.nil_prefix, rfl⟩, ?_⟩
  · simp [fronts start]
  · rintro _ ⟨front, start, rfl⟩
    simp [unclosed, fronts start]

theorem prefix_append_iff {front first second : List Char} :
    front <+: first ++ second ↔
      front <+: first ∨ ∃ inner, inner <+: second ∧ front = first ++ inner := by
  constructor
  · intro start
    rcases List.prefix_or_prefix_of_prefix start (List.prefix_append first second) with
      within | ⟨inner, rfl⟩
    · exact .inl within
    · exact .inr ⟨inner, (List.prefix_append_right_inj first).mp start, rfl⟩
  · rintro (within | ⟨inner, start, rfl⟩)
    · exact within.trans (List.prefix_append first second)
    · exact (List.prefix_append_right_inj first).mpr start

/-- Of two texts one after the other, the more deeply nested one tells the depth. -/
theorem Nested.append {first second : List Char}
    {firstPairs secondPairs firstDepth secondDepth : Nat}
    (first_nested : Nested first firstPairs firstDepth)
    (second_nested : Nested second secondPairs secondDepth) :
    Nested (first ++ second) (firstPairs + secondPairs) (max firstDepth secondDepth) := by
  have closed_eq := first_nested.closed.trans first_nested.opened.symm
  have unclosed_append (inner : List Char) : unclosed (first ++ inner) = unclosed inner := by
    simp [unclosed, closed_eq, Nat.add_sub_add_left]
  refine ⟨?_, ?_, fun front start => ?_, ?_, ?_⟩
  · simp [first_nested.opened, second_nested.opened]
  · simp [first_nested.closed, second_nested.closed]
  · rcases prefix_append_iff.mp start with within | ⟨inner, within, rfl⟩
    · exact first_nested.ordered front within
    · simpa [closed_eq] using second_nested.ordered inner within
  · rcases le_total secondDepth firstDepth with first_deeper | second_deeper
    · obtain ⟨front, within, deepest⟩ := first_nested.deepest.1
      rw [max_eq_left first_deeper]
      exact ⟨front, prefix_append_iff.mpr (.inl within), deepest⟩
    · obtain ⟨inner, within, deepest⟩ := second_nested.deepest.1
      rw [max_eq_right second_deeper]
      exact ⟨first ++ inner, prefix_append_iff.mpr (.inr ⟨inner, within, rfl⟩),
        (unclosed_append inner).trans deepest⟩
  · rintro _ ⟨front, start, rfl⟩
    rcases prefix_append_iff.mp start with within | ⟨inner, within, rfl⟩
    · exact le_max_of_le_left (first_nested.deepest.2 ⟨front, within, rfl⟩)
    · rw [unclosed_append]
      exact le_max_of_le_right (second_nested.deepest.2 ⟨inner, within, rfl⟩)

/-- Parentheses around a text make one more pair and one more level. -/
theorem Nested.parenthesized {text : List Char} {pairs depth : Nat}
    (nested : Nested text pairs depth) :
    Nested ('(' :: (text ++ [')'])) (pairs + 1) (depth + 1) := by
  have unclosed_cons {inner : List Char} (within : inner <+: text) :
      unclosed ('(' :: inner) = unclosed inner + 1 := by
    have ordered := nested.ordered inner within
    simp [unclosed]
    omega
  have starts {inner : List Char} (within : inner <+: text) :
      '(' :: inner <+: '(' :: (text ++ [')']) :=
    List.prefix_cons_iff.mpr (.inr ⟨inner, rfl, within.trans (List.prefix_append text [')'])⟩)
  have fronts {front : List Char} (start : front <+: '(' :: (text ++ [')'])) :
      front = [] ∨ (∃ inner, inner <+: text ∧ front = '(' :: inner) ∨
        front = '(' :: (text ++ [')']) := by
    rcases List.prefix_cons_iff.mp start with rfl | ⟨inner, rfl, within⟩
    · exact .inl rfl
    · rcases List.prefix_concat_iff.mp within with rfl | within
      · exact .inr (.inr rfl)
      · exact .inr (.inl ⟨inner, within, rfl⟩)
  refine ⟨?_, ?_, fun front start => ?_, ?_, ?_⟩
  · simp [nested.opened]
  · simp [nested.closed]
  · rcases fronts start with rfl | ⟨inner, within, rfl⟩ | rfl
    · simp
    · simpa using Nat.le_succ_of_le (nested.ordered inner within)
    · simp [nested.opened, nested.closed]
  · obtain ⟨inner, within, deepest⟩ := nested.deepest.1
    exact ⟨'(' :: inner, starts within, (unclosed_cons within).trans (congrArg (· + 1) deepest)⟩
  · rintro _ ⟨front, start, rfl⟩
    rcases fronts start with rfl | ⟨inner, within, rfl⟩ | rfl
    · simp [unclosed]
    · rw [unclosed_cons within]
      exact Nat.add_le_add_right (nested.deepest.2 ⟨inner, within, rfl⟩) 1
    · simp [unclosed, nested.opened, nested.closed]

theorem size_pos (term : Term) : 0 < term.size := by
  induction term with
  | app fn arg fn_ih arg_ih => exact Nat.add_pos_left fn_ih _
  | _ => exact Nat.one_pos

/-- The parentheses of a written term tell its size and its depth. -/
theorem nested_render (term : Term) : Nested term.render.toList (term.size - 1) term.depth := by
  induction term with
  | app fn arg fn_ih arg_ih =>
      have space_nested : Nested [' '] 0 0 := nested_singleton (by decide) (by decide)
      have nested := (fn_ih.append (space_nested.append arg_ih)).parenthesized
      have pairs_eq : (fn.size - 1) + (0 + (arg.size - 1)) + 1 = (app fn arg).size - 1 := by
        have fn_pos := fn.size_pos
        have arg_pos := arg.size_pos
        rw [size]
        omega
      have depth_eq : max fn.depth (max 0 arg.depth) + 1 = (app fn arg).depth := by
        rw [depth]
        omega
      rw [pairs_eq, depth_eq] at nested
      simpa [render_app_toList] using nested
  | _ => exact nested_singleton (by decide) (by decide)

end Term

/-! ## Answers of a registry -/

/-- A question is answered for every term if it is answered for the combinators and for the
applications of terms that it is answered for. -/
theorem Question.answer_ofTerm {α : Type} {question : Question α} {value : Term → α}
    (combinators : question.answer (.ofTerm .S) = .ok (value .S) ∧
      question.answer (.ofTerm .K) = .ok (value .K) ∧
        question.answer (.ofTerm .I) = .ok (value .I))
    (applications : question.head RawTerm.appHead = .ok ())
    (nodes : ∀ fn arg : Term, question.node (.ofTerm fn) (.ofTerm arg) (value fn) (value arg) =
      .ok (value (.app fn arg)))
    (term : Term) : question.answer (.ofTerm term) = .ok (value term) := by
  induction term with
  | app fn arg fn_ih arg_ih =>
      rw [RawTerm.ofTerm, Question.answer, applications, fn_ih, arg_ih, ← nodes fn arg]
      cases order : question.argFirst <;> simp [Question.both, order, bind, Except.bind, pure,
        Except.pure]
  | S => exact combinators.1
  | K => exact combinators.2.1
  | I => exact combinators.2.2

namespace Registry

section

variable {registry : Registry} (tidy : registry.Tidy) (term : Term)
include tidy

theorem Tidy.render_eq : ((render (.ofTerm term)).outcome registry).1 = .ok term.render :=
  tidy.ask_eq .text (RawTerm.genuine_ofTerm term)
    (Question.answer_ofTerm ⟨rfl, rfl, rfl⟩ rfl (fun _ _ => rfl) term)

theorem Tidy.size_eq : ((Registry.size (.ofTerm term)).outcome registry).1 = .ok term.size :=
  tidy.ask_eq .size (RawTerm.genuine_ofTerm term)
    (Question.answer_ofTerm ⟨rfl, rfl, rfl⟩ rfl (fun _ _ => rfl) term)

theorem Tidy.depth_eq : ((Registry.depth (.ofTerm term)).outcome registry).1 = .ok term.depth :=
  tidy.ask_eq .depth (RawTerm.genuine_ofTerm term)
    (Question.answer_ofTerm ⟨rfl, rfl, rfl⟩ rfl (fun _ _ => rfl) term)

end

/--
However registries have been used, two terms are written alike only if they are the same term, and
the reader gets a term back from its written form. The text has a pair of parentheses for every atom
but one, none of which is closed before it is opened, and they are nested as deep as the term is.
-/
theorem written_terms_are_read_back {first second : Registry} (first_used : first.Used)
    (second_used : second.Used) (term other : Term) :
    (((render (.ofTerm term)).outcome first).1 = ((render (.ofTerm other)).outcome second).1 ↔
        term = other) ∧
      ∃ text size depth,
        ((render (.ofTerm term)).outcome first).1 = .ok text ∧
          ((Registry.size (.ofTerm term)).outcome second).1 = .ok size ∧
            ((Registry.depth (.ofTerm term)).outcome second).1 = .ok depth ∧
              (∀ found, Term.read? text = some found ↔ found = term) ∧
                Term.Nested text.toList (size - 1) depth := by
  have first_tidy := first_used.tidy
  have second_tidy := second_used.tidy
  refine ⟨?_, term.render, term.size, term.depth, first_tidy.render_eq term,
    second_tidy.size_eq term, second_tidy.depth_eq term, fun found => ?_, term.nested_render⟩
  · rw [first_tidy.render_eq, second_tidy.render_eq, Except.ok.injEq,
      Term.render_injective.eq_iff]
  · rw [Term.read?_eq_some_iff, Term.render_injective.eq_iff]

/-- `S K K` and `S (K K)` are told apart by their parentheses, also if one of them has been written
before. -/
theorem groupings_are_told_apart :
    let inTurn := Term.apps .S [.K, .K]
    let grouped := Term.app .S (.app .K .K)
    let asked := ((render (.ofTerm grouped)).outcome initial).2
    initial.Used ∧ asked.Used ∧
      ((render (.ofTerm inTurn)).outcome initial).1 ≠ ((render (.ofTerm grouped)).outcome asked).1 ∧
        ∃ text size depth,
          ((render (.ofTerm inTurn)).outcome initial).1 = .ok text ∧
            ((Registry.size (.ofTerm inTurn)).outcome asked).1 = .ok size ∧
              ((Registry.depth (.ofTerm inTurn)).outcome asked).1 = .ok depth ∧
                (∀ found, Term.read? text = some found ↔ found = inTurn) ∧
                  Term.Nested text.toList (size - 1) depth := by
  intro inTurn grouped asked
  have asked_used : asked.Used := .asked .initial .text (.ofTerm grouped)
  obtain ⟨told_apart, read_back⟩ :=
    written_terms_are_read_back .initial asked_used inTurn grouped
  exact ⟨.initial, asked_used, told_apart.not.mpr (by decide), read_back⟩

end Registry
end Combinatory
