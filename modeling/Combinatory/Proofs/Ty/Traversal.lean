import Combinatory.Ty.Raw
import Mathlib.Data.List.Basic
import Mathlib.Data.List.Induction

/-!
# The order of variables

The variables of a type are listed by a loop over a stack of types that are still to be visited. In
each turn the type on top is taken off: a variable is listed if it has not been met before, and a
function type gives way to its domain and, below that, its codomain. So what has been visited and
what is pending make up the leaves of the type from left to right at every turn, and what has been
listed are the variables visited so far, each where it appeared first. One turn visits one node, so
the stack is empty after as many turns as the type has nodes.
-/

namespace Combinatory
namespace Ty

/-- The variables of a type from left to right, each as often as it occurs. -/
def leaves : Ty → List String
  | var name => [name]
  | arrow dom cod => dom.leaves ++ cod.leaves

theorem mem_leaves {name : String} {type : Ty} :
    name ∈ type.leaves ↔ type.mentions name = true := by
  induction type with
  | var other =>
      simp only [leaves, mentions, List.mem_singleton, beq_iff_eq]
      exact eq_comm
  | arrow dom cod dom_ih cod_ih => simp [leaves, mentions, dom_ih, cod_ih]

theorem size_pos (type : Ty) : 0 < type.size := by
  cases type <;> simp [size]

/-! ## First appearances -/

/-- Leaving out repetitions is not disturbed by a map that keeps the items apart. -/
theorem eraseDups_map {α β : Type} [BEq α] [BEq β] {f : α → β} (items : List α)
    (apart : ∀ first ∈ items, ∀ second ∈ items, (f first == f second) = (first == second)) :
    (items.map f).eraseDups = items.eraseDups.map f := by
  -- What goes on is the rest without the first item, which is no tail, so its length has to fall.
  match items with
  | [] => rfl
  | item :: items =>
      have shorter : (items.filter fun other => !other == item).length < items.length + 1 :=
        Nat.lt_succ_of_le (List.length_filter_le _ _)
      have others : (items.map f).filter (fun other => !other == f item) =
          (items.filter fun other => !other == item).map f := by
        rw [List.filter_map]
        refine congrArg (List.map f) (List.filter_congr fun other member => ?_)
        rw [Function.comp_apply,
          apart other (List.mem_cons_of_mem _ member) item List.mem_cons_self]
      have listed {other : α} (kept : other ∈ items.filter fun other => !other == item) :
          other ∈ item :: items :=
        List.mem_cons_of_mem _ (List.mem_filter.mp kept).1
      have rest := eraseDups_map (items.filter fun other => !other == item)
        fun first first_kept second second_kept =>
          apart first (listed first_kept) second (listed second_kept)
      rw [List.map_cons, List.eraseDups_cons, List.eraseDups_cons, List.map_cons, others, rest]
termination_by items.length

section

variable {α : Type} [BEq α] [LawfulBEq α]

theorem eraseDups_concat (items : List α) (item : α) :
    (items ++ [item]).eraseDups =
      if item ∈ items then items.eraseDups else items.eraseDups ++ [item] := by
  rw [List.eraseDups_append]
  by_cases old : item ∈ items
  · simp [List.removeAll, old]
  · simp [List.removeAll, old, List.eraseDups_cons]

/-- What is left without repetitions stands in the order of first appearance. -/
theorem pairwise_eraseDups (items : List α) :
    items.eraseDups.Pairwise fun first later => items.idxOf first < items.idxOf later := by
  induction items using List.reverseRecOn with
  | nil => exact List.Pairwise.nil
  | append_singleton items item ih =>
      have kept : items.eraseDups.Pairwise fun first later =>
          (items ++ [item]).idxOf first < (items ++ [item]).idxOf later := by
        refine ih.imp_of_mem fun first_mem later_mem before => ?_
        rw [List.mem_eraseDups] at first_mem later_mem
        rwa [List.idxOf_append_of_mem first_mem, List.idxOf_append_of_mem later_mem]
      rw [eraseDups_concat]
      split
      · exact kept
      · next new =>
          refine List.pairwise_append.mpr ⟨kept, List.pairwise_singleton _ _, ?_⟩
          intro first first_mem later later_mem
          rw [List.mem_eraseDups] at first_mem
          obtain rfl := List.mem_singleton.mp later_mem
          rw [List.idxOf_append_of_mem first_mem, List.idxOf_append_of_notMem new]
          exact Nat.lt_add_right _ (List.idxOf_lt_length_of_mem first_mem)

end

/-! ## The loop -/

/-- The traversal of a type, under way. -/
structure Traversal where
  /-- The types that are still to be visited, the top of the stack first. -/
  pending : List Ty
  /-- The variables that have been met. -/
  seen : List String
  /-- The variables that have been listed, in this order. -/
  listed : List String
  deriving DecidableEq

namespace Traversal

/-- Nothing has been visited yet. -/
def start (type : Ty) : Traversal := ⟨[type], [], []⟩

/-- One turn of the loop, which ends when nothing is pending. -/
def next : Traversal → Option Traversal
  | ⟨[], _, _⟩ => none
  | ⟨var name :: pending, seen, listed⟩ =>
      if name ∈ seen then some ⟨pending, seen, listed⟩
      else some ⟨pending, name :: seen, listed ++ [name]⟩
  | ⟨arrow dom cod :: pending, seen, listed⟩ => some ⟨dom :: cod :: pending, seen, listed⟩

/-- Take exactly the given number of turns, if the loop does not end before. -/
def run : Nat → Traversal → Option Traversal
  | 0, state => some state
  | turns + 1, state => state.next >>= run turns

/-- The number of nodes that are still to be visited. -/
def remaining (state : Traversal) : Nat :=
  state.pending.foldr (fun type total => type.size + total) 0

variable {type : Ty} {visited : List String} {state after last : Traversal} {turns : Nat}

theorem next_cases (turn : state.next = some after) :
    (∃ name pending, state.pending = var name :: pending ∧ name ∈ state.seen ∧
        after = { state with pending }) ∨
      (∃ name pending, state.pending = var name :: pending ∧ name ∉ state.seen ∧
        after = ⟨pending, name :: state.seen, state.listed ++ [name]⟩) ∨
      ∃ dom cod pending, state.pending = arrow dom cod :: pending ∧
        after = { state with pending := dom :: cod :: pending } := by
  obtain ⟨pending, seen, listed⟩ := state
  rcases pending with _ | ⟨name | ⟨dom, cod⟩, pending⟩
  · cases turn
  · simp only [next] at turn
    split at turn
    · next known =>
        exact .inl ⟨name, pending, rfl, known, (Option.some.inj turn).symm⟩
    · next new =>
        exact .inr (.inl ⟨name, pending, rfl, new, (Option.some.inj turn).symm⟩)
  · exact .inr (.inr ⟨dom, cod, pending, rfl, (Option.some.inj turn).symm⟩)

theorem next_eq_none_iff : state.next = none ↔ state.pending = [] := by
  obtain ⟨pending, seen, listed⟩ := state
  rcases pending with _ | ⟨name | ⟨dom, cod⟩, pending⟩
  · simp [next]
  · by_cases known : name ∈ seen <;> simp [next, known]
  · simp [next]

/-- One turn visits one node. -/
theorem remaining_of_next (turn : state.next = some after) :
    state.remaining = after.remaining + 1 := by
  rcases next_cases turn with
      ⟨name, pending, top, -, rfl⟩ | ⟨name, pending, top, -, rfl⟩ | ⟨dom, cod, pending, top, rfl⟩
  all_goals
    simp only [remaining, top, List.foldr_cons, size]
    omega

theorem pending_eq_nil_of_remaining (done : state.remaining = 0) : state.pending = [] := by
  cases pending_eq : state.pending with
  | nil => rfl
  | cons type pending =>
      have positive := type.size_pos
      simp only [remaining, pending_eq, List.foldr_cons] at done
      omega

/-- The loop ends once it has visited all nodes. -/
theorem exists_run (state : Traversal) :
    ∃ last, run state.remaining state = some last ∧ last.next = none := by
  -- The stack may grow in a turn; what falls by one is the number of nodes below it.
  induction nodes : state.remaining generalizing state with
  | zero => exact ⟨state, rfl, next_eq_none_iff.mpr (pending_eq_nil_of_remaining nodes)⟩
  | succ nodes_left ih =>
      cases turn : state.next with
      | none =>
          rw [remaining, next_eq_none_iff.mp turn] at nodes
          cases nodes
      | some after =>
          have after_nodes := remaining_of_next turn
          obtain ⟨last, rest, ended⟩ := ih after (by omega)
          exact ⟨last, by rw [run, turn]; exact rest, ended⟩

/-- The bound of `scan` counts turns: what a scan lists is listed in that many turns of the loop. -/
theorem listed_of_run (ran : run turns state = some last) :
    last.listed = state.listed ++ scan turns state.pending state.seen := by
  induction turns generalizing state with
  | zero =>
      cases ran
      simp [scan]
  | succ turns ih =>
      obtain ⟨after, turn, rest⟩ := Option.bind_eq_some_iff.mp ran
      rw [ih rest]
      rcases next_cases turn with
          ⟨name, pending, top, known, rfl⟩ | ⟨name, pending, top, new, rfl⟩ |
            ⟨dom, cod, pending, top, rfl⟩
      · rw [top, scan, if_pos known]
      · rw [top, scan, if_neg new, List.append_assoc, List.singleton_append]
      · rw [top, scan]

/-! ## What every turn keeps -/

/-- The traversal of the type has come past the given leaves. -/
structure Past (type : Ty) (visited : List String) (state : Traversal) : Prop where
  /-- The leaves that are visited come first, and those of the pending types follow. -/
  leaves_eq : type.leaves = visited ++ state.pending.flatMap leaves
  /-- The variables that have been met are those visited. -/
  mem_seen : ∀ name, name ∈ state.seen ↔ name ∈ visited
  /-- They are listed where they appeared first. -/
  listed_eq : state.listed = visited.eraseDups

theorem past_start (type : Ty) : Past type [] (start type) where
  leaves_eq := by simp [start]
  mem_seen _ := Iff.rfl
  listed_eq := rfl

/-- A turn comes past one more leaf or, at a function type, past none. -/
theorem Past.next (past : Past type visited state) (turn : state.next = some after) :
    ∃ visited, Past type visited after := by
  obtain ⟨leaves_eq, mem_seen, listed_eq⟩ := past
  rcases next_cases turn with
      ⟨name, pending, top, known, rfl⟩ | ⟨name, pending, top, new, rfl⟩ |
        ⟨dom, cod, pending, top, rfl⟩
  · have old : name ∈ visited := (mem_seen name).mp known
    refine ⟨visited ++ [name], by simpa [top, leaves] using leaves_eq, fun other => ?_, ?_⟩
    · grind
    · rw [eraseDups_concat, if_pos old, listed_eq]
  · have unvisited : name ∉ visited := fun old => new ((mem_seen name).mpr old)
    refine ⟨visited ++ [name], by simpa [top, leaves] using leaves_eq, fun other => ?_, ?_⟩
    · grind
    · rw [eraseDups_concat, if_neg unvisited, listed_eq]
  · exact ⟨visited, by simpa [top, leaves] using leaves_eq, mem_seen, listed_eq⟩

theorem Past.run (past : Past type visited state) (ran : run turns state = some last) :
    ∃ visited, Past type visited last := by
  induction turns generalizing visited state with
  | zero =>
      cases ran
      exact ⟨visited, past⟩
  | succ turns ih =>
      obtain ⟨after, turn, rest⟩ := Option.bind_eq_some_iff.mp ran
      obtain ⟨further, past_after⟩ := past.next turn
      exact ih past_after rest

/-- When the loop ends, all leaves have been visited. -/
theorem Past.listed_eq_of_ended (past : Past type visited state) (ended : state.next = none) :
    state.listed = type.leaves.eraseDups := by
  have leaves_eq := past.leaves_eq
  rw [next_eq_none_iff.mp ended, List.flatMap_nil, List.append_nil] at leaves_eq
  rw [leaves_eq, past.listed_eq]

end Traversal

/-- The loop visits every node of the type in a turn of its own, ends after that, and has listed the
variables. -/
theorem exists_traversal (type : Ty) :
    ∃ last, (Traversal.start type).run type.size = some last ∧ last.next = none ∧
      last.listed = type.vars := by
  obtain ⟨last, ran, ended⟩ := (Traversal.start type).exists_run
  have all_nodes : (Traversal.start type).remaining = type.size := by
    simp [Traversal.start, Traversal.remaining]
  rw [all_nodes] at ran
  exact ⟨last, ran, ended, Traversal.listed_of_run ran⟩

theorem vars_eq_eraseDups_leaves (type : Ty) : type.vars = type.leaves.eraseDups := by
  obtain ⟨last, ran, ended, listed_eq⟩ := type.exists_traversal
  obtain ⟨visited, past⟩ := (Traversal.past_start type).run ran
  rw [← listed_eq, past.listed_eq_of_ended ended]

theorem mem_vars {name : String} {type : Ty} : name ∈ type.vars ↔ type.mentions name = true := by
  rw [vars_eq_eraseDups_leaves, List.mem_eraseDups, mem_leaves]

theorem pairwise_vars (type : Ty) :
    type.vars.Pairwise fun first later =>
      type.leaves.idxOf first < type.leaves.idxOf later := by
  rw [vars_eq_eraseDups_leaves]
  exact pairwise_eraseDups type.leaves

theorem nodup_vars (type : Ty) : type.vars.Nodup := by
  refine type.pairwise_vars.imp fun {first later} before same => ?_
  exact Nat.ne_of_lt before (congrArg type.leaves.idxOf same)

end Ty

/-! ## Types as they are handed in -/

namespace RawTy

theorem var_beq_var (left right : String) : (var left == var right) = (left == right) := by
  rw [Bool.eq_iff_iff]
  simp [BEq.beq, shape, Shape.ofList, Shape.text]

theorem contains_map_var (names : List String) (name : String) :
    (names.map var).contains (var name) = decide (name ∈ names) := by
  induction names with
  | nil => rfl
  | cons other names ih => simp [var_beq_var, ih, beq_eq_decide]

theorem leaves?_ofTy (type : Ty) : (ofTy type).leaves? = .ok (type.leaves.map var) := by
  induction type with
  | var name => rfl
  | arrow dom cod dom_ih cod_ih =>
      have no_variable : arrowHead ≠ variableHead := by decide
      rw [ofTy, leaves?, if_neg no_variable, dom_ih, cod_ih, Ty.leaves, List.map_append]
      rfl

/-- The variables of a proper type are listed in the same order where it is handed in. -/
theorem vars?_ofTy (type : Ty) : (ofTy type).vars? = .ok (type.vars.map var) := by
  have apart : ∀ first ∈ type.leaves, ∀ second ∈ type.leaves,
      (var first == var second) = (first == second) :=
    fun first _ second _ => var_beq_var first second
  rw [vars?, leaves?_ofTy, Ty.vars_eq_eraseDups_leaves, ← Ty.eraseDups_map type.leaves apart]
  rfl

theorem freeVars?_ofTy (type : Ty) : (ofTy type).freeVars? = .ok (type.freeVars.map var) := by
  induction type with
  | var name => rfl
  | arrow dom cod dom_ih cod_ih =>
      have no_variable : arrowHead ≠ variableHead := by decide
      have others : (cod.freeVars.map var).filter (!(dom.freeVars.map var).contains ·) =
          (cod.freeVars.filter (· ∉ dom.freeVars)).map var := by
        rw [List.filter_map]
        simp only [Function.comp_def, contains_map_var, decide_not]
      rw [ofTy, freeVars?, if_neg no_variable, if_pos rfl, dom_ih, cod_ih, Ty.freeVars,
        List.map_append, ← others]
      rfl

end RawTy

/--
For every type the loop over the pending types ends, after one turn for each node, and what it has
listed are the variables of the type: each of them once, in the order in which they appear first
among the leaves from left to right, and as a set those that are collected from the two sides of
every arrow. The type as it is handed in has the same variables in the same order.
-/
theorem Ty.variables_listed_by_first_appearance (type : Ty) :
    (∃ last, (Traversal.start type).run type.size = some last ∧ last.next = none ∧
        last.listed = type.vars) ∧
      type.vars.Nodup ∧
      (∀ name, name ∈ type.vars ↔ name ∈ type.leaves) ∧
      (type.vars.Pairwise fun first later =>
        type.leaves.idxOf first < type.leaves.idxOf later) ∧
      (∀ name, name ∈ type.vars ↔ name ∈ type.freeVars) ∧
      (RawTy.ofTy type).vars? = .ok (type.vars.map .var) ∧
      (RawTy.ofTy type).freeVars? = .ok (type.freeVars.map .var) := by
  refine ⟨type.exists_traversal, type.nodup_vars, fun name => ?_, type.pairwise_vars,
    fun name => ?_, RawTy.vars?_ofTy type, RawTy.freeVars?_ofTy type⟩
  · rw [mem_vars, mem_leaves]
  · rw [mem_vars, mem_freeVars]

/-- What is below an arrow on the left comes before what is on its right. -/
example : (Ty.arrow (.arrow (.var "b") (.var "a")) (.arrow (.var "c") (.var "a"))).vars =
    ["b", "a", "c"] := by decide

end Combinatory
