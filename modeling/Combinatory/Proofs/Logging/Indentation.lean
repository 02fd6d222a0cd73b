import Combinatory.Logging.Indentation
import Mathlib.Order.Bounds.Basic

/-!
# Indentation follows depth

A line is indented by its depth, measured from the smallest depth seen so far. While that stays the
same, lines are indented more the deeper they are. A line that is less deep than all before it moves
the measure: later lines are indented from there, and those already written stay where they are. So
a later line may be indented as much as a deeper one, or more, but of two lines the later one is
never indented less unless it is less deep.
-/

namespace Combinatory
namespace Indentation

/-- A message that is indented by a number of blanks. -/
def indented (blanks : Nat) (message : String) : String :=
  String.ofList (List.replicate blanks ' ') ++ " " ++ message

/-- The state after lines have been formatted one after another. -/
def after (lines : List (Int × String)) : Indentation :=
  ((lines.mapM fun (depth, message) => format depth message).run start).2

/-- The smallest depth seen once a line of the given depth is written at a position. -/
def lowestAt (lines : List (Int × String)) (position : Nat) (depth : Int) : Int :=
  (after (lines.take position)).lowestWith depth

/-- The number of blanks by which a line of the given depth is indented at a position. -/
def indentAt (lines : List (Int × String)) (position : Nat) (depth : Int) : Nat :=
  (after (lines.take position)).indent depth

/-- A line up to the position, this one included, is of the depth. -/
def SeenBy (lines : List (Int × String)) (position : Nat) (depth : Int) : Prop :=
  ∃ place ≤ position, ∃ message, lines[place]? = some (depth, message)

variable {lines : List (Int × String)} {position later : Nat} {depth laterDepth : Int}
  {message laterMessage : String}

/-! ## What is written -/

theorem formatAll_append_cons (lines rest : List (Int × String)) (depth : Int) (message : String) :
    formatAll (lines ++ (depth, message) :: rest) =
      formatAll lines ++ indented ((after lines).indent depth) message ::
        ((rest.mapM fun (depth, message) => format depth message).run
          ⟨some ((after lines).lowestWith depth)⟩).1 := by
  rw [formatAll, List.mapM_append, List.mapM_cons]
  rfl

theorem after_concat (lines : List (Int × String)) (depth : Int) (message : String) :
    after (lines ++ [(depth, message)]) = ⟨some ((after lines).lowestWith depth)⟩ := by
  rw [after, List.mapM_append]
  rfl

theorem length_formatAll (lines : List (Int × String)) :
    (formatAll lines).length = lines.length := by
  have each (state : Indentation) :
      ((lines.mapM fun (depth, message) => format depth message).run state).1.length =
        lines.length := by
    induction lines generalizing state with
    | nil => rfl
    | cons line lines ih =>
        rw [List.mapM_cons]
        exact congrArg (· + 1) (ih _)
  exact each start

/-- A line is found in its place among those that are written. -/
theorem getElem?_formatAll (found : lines[position]? = some (depth, message)) :
    (formatAll lines)[position]? = some (indented (indentAt lines position depth) message) := by
  obtain ⟨inside, line_eq⟩ := List.getElem?_eq_some_iff.mp found
  have parts : lines =
      lines.take position ++ (depth, message) :: lines.drop (position + 1) := by
    rw [← line_eq, List.getElem_cons_drop, List.take_append_drop]
  have before : (formatAll (lines.take position)).length = position := by
    rw [length_formatAll, List.length_take, Nat.min_eq_left (Nat.le_of_lt inside)]
  conv_lhs => rw [parts, formatAll_append_cons]
  rw [List.getElem?_append_right (Nat.le_of_eq before), before, Nat.sub_self]
  rfl

/-! ## The smallest depth -/

theorem after_take (found : lines[position]? = some (depth, message)) :
    after (lines.take (position + 1)) = ⟨some (lowestAt lines position depth)⟩ := by
  rw [List.take_add_one, found]
  exact after_concat _ depth message

theorem lowestAt_le (lines : List (Int × String)) (position : Nat) (depth : Int) :
    lowestAt lines position depth ≤ depth := by
  unfold lowestAt lowestWith
  split
  · exact Int.le_refl depth
  · exact Int.min_le_right _ depth

/-- What is measured from is the smallest depth of the lines so far. -/
theorem isLeast_lowestAt (found : lines[position]? = some (depth, message)) :
    IsLeast {seen | SeenBy lines position seen} (lowestAt lines position depth) := by
  induction position generalizing depth message with
  | zero =>
      refine ⟨⟨0, Nat.le_refl 0, message, found⟩, ?_⟩
      rintro seen ⟨place, first, other, seen_found⟩
      obtain rfl := Nat.le_zero.mp first
      cases found.symm.trans seen_found
      exact Int.le_refl depth
  | succ position ih =>
      have inside := (List.getElem?_eq_some_iff.mp found).1
      obtain ⟨⟨lastDepth, lastMessage⟩, last_found⟩ :
          ∃ line, lines[position]? = some line :=
        ⟨_, List.getElem?_eq_getElem (Nat.lt_of_succ_lt inside)⟩
      obtain ⟨⟨place, so_far, other, seen_found⟩, smallest⟩ := ih last_found
      have lowest_eq : lowestAt lines (position + 1) depth =
          min (lowestAt lines position lastDepth) depth := by
        rw [lowestAt, after_take last_found]
        rfl
      rw [lowest_eq]
      constructor
      · rcases Int.le_total (lowestAt lines position lastDepth) depth with kept | moved
        · rw [Int.min_eq_left kept]
          exact ⟨place, Nat.le_succ_of_le so_far, other, seen_found⟩
        · rw [Int.min_eq_right moved]
          exact ⟨position + 1, Nat.le_refl _, message, found⟩
      · rintro seen ⟨place, so_far, other, seen_found⟩
        rcases Nat.le_succ_iff.mp so_far with earlier | rfl
        · exact Int.le_trans (Int.min_le_left _ _) (smallest ⟨place, earlier, other, seen_found⟩)
        · cases found.symm.trans seen_found
          exact Int.min_le_right _ _

theorem indentAt_eq (lines : List (Int × String)) (position : Nat) (depth : Int) :
    (indentAt lines position depth : Int) = depth - lowestAt lines position depth :=
  Int.toNat_of_nonneg (Int.sub_nonneg.mpr (lowestAt_le lines position depth))

/-- The smallest depth does not grow. -/
theorem lowestAt_le_lowestAt (ordered : position ≤ later)
    (found : lines[position]? = some (depth, message))
    (later_found : lines[later]? = some (laterDepth, laterMessage)) :
    lowestAt lines later laterDepth ≤ lowestAt lines position depth := by
  obtain ⟨⟨place, so_far, other, seen_found⟩, -⟩ := isLeast_lowestAt found
  exact (isLeast_lowestAt later_found).2
    ⟨place, Nat.le_trans so_far ordered, other, seen_found⟩

/-- It stays the same while no line is less deep than all up to the position. -/
theorem lowestAt_eq_lowestAt (ordered : position ≤ later)
    (found : lines[position]? = some (depth, message))
    (later_found : lines[later]? = some (laterDepth, laterMessage))
    (kept : ∀ seen, SeenBy lines later seen → ∃ lower ≤ seen, SeenBy lines position lower) :
    lowestAt lines later laterDepth = lowestAt lines position depth := by
  refine Int.le_antisymm (lowestAt_le_lowestAt ordered found later_found) ?_
  obtain ⟨lower, below, seen⟩ := kept _ (isLeast_lowestAt later_found).1
  exact Int.le_trans ((isLeast_lowestAt found).2 seen) below

/--
Every line is indented by its depth less the smallest depth of the lines so far, which is never
negative. So of two lines the later one is indented more if it is deeper, and less only if it is
less deep. If no line up to the later one is less deep than all up to the earlier one, then each of
them is indented less than the other exactly if it is less deep.
-/
theorem indentation_measures_from_lowest (lines : List (Int × String)) :
    (∀ position depth message, lines[position]? = some (depth, message) →
      (formatAll lines)[position]? = some (indented (indentAt lines position depth) message) ∧
        ∃ lowest, IsLeast {seen | SeenBy lines position seen} lowest ∧
          (indentAt lines position depth : Int) = depth - lowest) ∧
    ∀ {position later depth laterDepth message laterMessage}, position < later →
      lines[position]? = some (depth, message) →
      lines[later]? = some (laterDepth, laterMessage) →
      (depth < laterDepth → indentAt lines position depth < indentAt lines later laterDepth) ∧
      (indentAt lines later laterDepth < indentAt lines position depth → laterDepth < depth) ∧
      ((∀ seen, SeenBy lines later seen → ∃ lower ≤ seen, SeenBy lines position lower) →
        (indentAt lines position depth < indentAt lines later laterDepth ↔ depth < laterDepth) ∧
        (indentAt lines later laterDepth < indentAt lines position depth ↔
          laterDepth < depth)) := by
  refine ⟨fun position depth message found => ?_, ?_⟩
  · exact ⟨getElem?_formatAll found, _, isLeast_lowestAt found, indentAt_eq lines position depth⟩
  · intro position later depth laterDepth message laterMessage ordered found later_found
    have measured := indentAt_eq lines position depth
    have later_measured := indentAt_eq lines later laterDepth
    have lowest_le := lowestAt_le_lowestAt (Nat.le_of_lt ordered) found later_found
    refine ⟨fun deeper => by omega, fun less => by omega, fun kept => ?_⟩
    have same := lowestAt_eq_lowestAt (Nat.le_of_lt ordered) found later_found kept
    constructor <;> omega

/-- The second and the fourth line of five, between which no line is less deep than the second. -/
theorem indentation_after_descent :
    let lines : List (Int × String) := [(5, "a"), (3, "b"), (6, "c"), (4, "d"), (2, "e")]
    lines[1]? = some (3, "b") ∧ lines[3]? = some (4, "d") ∧
      (indentAt lines 1 3 < indentAt lines 3 4 ↔ (3 : Int) < 4) ∧
        (formatAll lines)[3]? = some (indented (indentAt lines 3 4) "d") := by
  intro lines
  have second_found : lines[1]? = some (3, "b") := rfl
  have fourth_found : lines[3]? = some (4, "d") := rfl
  obtain ⟨written, ordered⟩ := indentation_measures_from_lowest lines
  refine ⟨second_found, fourth_found, ?_, (written 3 4 "d" fourth_found).1⟩
  refine ((ordered (by decide) second_found fourth_found).2.2 ?_).1
  rintro seen ⟨place, so_far, message, found⟩
  refine ⟨3, ?_, 1, Nat.le_refl 1, "b", second_found⟩
  match place, so_far with
  | 0, _ | 1, _ | 2, _ | 3, _ =>
      cases found
      decide

/-- If the measure has moved between them, a line that is less deep than an earlier one is indented
more than it, or just as much. -/
theorem indentation_is_not_by_depth_alone :
    let lines : List (Int × String) := [(5, "a"), (3, "b"), (4, "c")]
    formatAll lines = [" a", " b", "  c"] ∧
      ¬ (indentAt lines 2 4 < indentAt lines 0 5 ↔ (4 : Int) < 5) ∧
        ¬ (indentAt lines 1 3 < indentAt lines 0 5 ↔ (3 : Int) < 5) := by
  decide

end Indentation
end Combinatory
