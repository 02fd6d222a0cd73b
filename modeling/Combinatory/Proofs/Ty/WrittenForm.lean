import Combinatory.Proofs.Ty.Scheme
import Combinatory.Ty.Raw

/-!
# Reading written types

Only arrows in the domain of another arrow are written in parentheses, and no name of a variable
contains a blank or a parenthesis. A reader that goes through the text once, with the open
parentheses and the domains that still want a codomain on a stack, therefore gets a written type
back. Names that may be written are such names, the ones that end in a line feed included, and so
are drawn names, so all types that are built from these are told apart by how they are written.
-/

namespace Combinatory

namespace Ty

/-! ## Reading -/

/-- What is to the left of the part that is being read. -/
inductive Pending where
  /-- A parenthesis that has been opened. -/
  | group
  /-- A domain and the arrow after it. -/
  | domain (dom : Ty)

/-- What has been read of the part of a type that is up to the next arrow or parenthesis. -/
inductive Part where
  /-- The letters of a name, the last one first; none if the part has yet to begin. -/
  | name (letters : List Char)
  /-- A function type in parentheses. -/
  | group (dom cod : Ty)

/-- May the character be in a name? -/
def isLetter (c : Char) : Bool :=
  c ∉ [' ', '(', ')']

/-- The type that the part stands for. -/
def Part.type? : Part → Option Ty
  | name letters => if letters.isEmpty then none else some (var (String.ofList letters.reverse))
  | group dom cod => some (arrow dom cod)

/-- The function types whose codomain ends here, and what is to their left. -/
def collapse : Ty → List Pending → Ty × List Pending
  | cod, .domain dom :: pending => collapse (arrow dom cod) pending
  | type, pending => (type, pending)

/-- The function type in parentheses that ends here, and what is to its left. -/
def endGroup (last : Ty) (pending : List Pending) : Option (Ty × Ty × List Pending) :=
  match collapse last pending with
  | (arrow dom cod, .group :: outer) => some (dom, cod, outer)
  | _ => none

/-- The type that ends with the text. -/
def endText (last : Ty) (pending : List Pending) : Option Ty :=
  match collapse last pending with
  | (type, []) => some type
  | _ => none

/-- Read the rest of a text, given the part that is being read and what is to the left of it, the
innermost first. -/
def readRest : Part → List Pending → List Char → Option Ty
  | .name [], pending, '(' :: rest => readRest (.name []) (.group :: pending) rest
  | part, pending, ' ' :: '-' :: '>' :: ' ' :: rest => do
      readRest (.name []) (.domain (← part.type?) :: pending) rest
  | .name letters, pending, ')' :: rest => do
      let (dom, cod, outer) ← endGroup (← (Part.name letters).type?) pending
      readRest (.group dom cod) outer rest
  | .name letters, pending, [] => do
      endText (← (Part.name letters).type?) pending
  | .name letters, pending, c :: rest =>
      if isLetter c then readRest (.name (c :: letters)) pending rest else none
  | .group _ _, _, _ => none

/-- The type that a text is the written form of. -/
def read? (text : String) : Option Ty :=
  readRest (.name []) [] text.toList

theorem endGroup_eq_some_iff {last dom cod : Ty} {pending outer : List Pending} :
    endGroup last pending = some (dom, cod, outer) ↔
      collapse last pending = (arrow dom cod, .group :: outer) := by
  rw [endGroup]
  split <;> simp_all [and_assoc]

theorem endText_eq_some_iff {last type : Ty} {pending : List Pending} :
    endText last pending = some type ↔ collapse last pending = (type, []) := by
  rw [endText]
  split <;> simp_all

section

variable {part : Part} {letters rest : List Char} {pending outer : List Pending} {last dom cod : Ty}

theorem readRest_arrow (whole : part.type? = some dom) :
    readRest part pending (' ' :: '-' :: '>' :: ' ' :: rest) =
      readRest (.name []) (.domain dom :: pending) rest := by
  rw [readRest, whole]
  rfl

theorem readRest_closing (whole : (Part.name letters).type? = some last)
    (ends : endGroup last pending = some (dom, cod, outer)) :
    readRest (.name letters) pending (')' :: rest) = readRest (.group dom cod) outer rest := by
  rw [readRest, whole]
  exact (congrArg (Option.bind · _) ends).trans rfl

theorem readRest_letter {c : Char} (letter : isLetter c = true) :
    readRest (.name letters) pending (c :: rest) =
      readRest (.name (c :: letters)) pending rest := by
  have no_mark : c ≠ ' ' ∧ c ≠ '(' ∧ c ≠ ')' := by simpa [isLetter] using letter
  rw [readRest] <;> simp [letter, no_mark]

theorem readRest_letters {name : List Char} (all_letters : ∀ c ∈ name, isLetter c = true) :
    readRest (.name letters) pending (name ++ rest) =
      readRest (.name (name.reverse ++ letters)) pending rest := by
  induction name generalizing letters with
  | nil => rfl
  | cons c name ih =>
      rw [List.forall_mem_cons] at all_letters
      rw [List.cons_append, readRest_letter all_letters.1, ih all_letters.2]
      simp

end

/-! ## Written types are read -/

/-- No name of a variable is empty or contains what arrows and parentheses are written with. -/
def Legible : Ty → Prop
  | var name => name ≠ "" ∧ ∀ c ∈ name.toList, isLetter c = true
  | arrow dom cod => dom.Legible ∧ cod.Legible

/-- How a type is written in the domain of an arrow. -/
def domainText (dom : Ty) : List Char :=
  if dom.isArrow then '(' :: (dom.pretty.toList ++ [')']) else dom.pretty.toList

theorem pretty_arrow_toList (dom cod : Ty) :
    (arrow dom cod).pretty.toList =
      dom.domainText ++ ' ' :: '-' :: '>' :: ' ' :: cod.pretty.toList := by
  cases dom <;> simp [pretty, joinArrow, domainText, isArrow]

/-- The name that a written type ends with. -/
def lastName : Ty → String
  | var name => name
  | arrow _ cod => cod.lastName

/-- What is to the left of the name that a written type ends with. -/
def pendingWith : List Pending → Ty → List Pending
  | pending, var _ => pending
  | pending, arrow dom cod => pendingWith (.domain dom :: pending) cod

theorem collapse_lastName (type : Ty) (pending : List Pending) :
    collapse (var type.lastName) (pendingWith pending type) = collapse type pending := by
  induction type generalizing pending with
  | var name => rfl
  | arrow dom cod _ cod_ih => exact cod_ih (.domain dom :: pending)

theorem Legible.lastName_ne {type : Ty} (legible : type.Legible) : type.lastName ≠ "" := by
  induction type with
  | var name => exact legible.1
  | arrow dom cod _ cod_ih => exact cod_ih legible.2

theorem Part.type?_name {name : String} (nonempty : name ≠ "") :
    (Part.name name.toList.reverse).type? = some (var name) := by
  simp [type?, nonempty]

/-- A written type is read, whatever comes after it and whatever it is part of, up to the name that
it ends with. -/
theorem readRest_pretty {type : Ty} (legible : type.Legible) (pending : List Pending)
    (rest : List Char) :
    readRest (.name []) pending (type.pretty.toList ++ rest) =
      readRest (.name type.lastName.toList.reverse) (pendingWith pending type) rest := by
  induction type generalizing pending rest with
  | var name =>
      have name_read : readRest (.name []) pending (name.toList ++ rest) = _ :=
        readRest_letters legible.2
      rwa [List.append_nil] at name_read
  | arrow dom cod dom_ih cod_ih =>
      obtain ⟨dom_legible, cod_legible⟩ := legible
      rw [pretty_arrow_toList, List.append_assoc]
      simp only [List.cons_append]
      -- once the domain has been read, what remains is the codomain
      refine Eq.trans ?_ (cod_ih cod_legible (.domain dom :: pending) rest)
      generalize cod.pretty.toList ++ rest = remaining
      cases dom with
      | var name =>
          exact (dom_ih dom_legible pending _).trans
            (readRest_arrow (Part.type?_name dom_legible.1))
      | arrow first second =>
          have group_ends : endGroup (var (arrow first second).lastName)
              (pendingWith (.group :: pending) (arrow first second)) =
              some (first, second, pending) :=
            endGroup_eq_some_iff.mpr (collapse_lastName _ _)
          have group_read := dom_ih dom_legible (.group :: pending)
            (')' :: ' ' :: '-' :: '>' :: ' ' :: remaining)
          rw [readRest_closing (Part.type?_name dom_legible.lastName_ne) group_ends,
            readRest_arrow rfl] at group_read
          simpa [domainText, isArrow, readRest] using group_read

/-- Types are read back from their written form. -/
theorem Legible.read?_pretty {type : Ty} (legible : type.Legible) :
    read? type.pretty = some type := by
  have read := readRest_pretty legible [] []
  rw [List.append_nil] at read
  rw [read?, read, readRest, Part.type?_name legible.lastName_ne]
  exact endText_eq_some_iff.mpr ((collapse_lastName type []).trans rfl)

/-! ## Only written types are read -/

/-- How what is to the left of a part is written. -/
def Pending.text : Pending → List Char
  | group => ['(']
  | domain dom => dom.domainText ++ [' ', '-', '>', ' ']

/-- How what has been read of a part is written. -/
def Part.text : Part → List Char
  | name letters => letters.reverse
  | group dom cod => (arrow dom cod).domainText

/-- How what is to the left of a part is written, all of it. -/
def pendingText (pending : List Pending) : List Char :=
  pending.reverse.flatMap Pending.text

theorem pendingText_cons (item : Pending) (pending : List Pending) :
    pendingText (item :: pending) = pendingText pending ++ item.text := by
  simp [pendingText]

theorem pendingText_collapse (type : Ty) (pending : List Pending) :
    pendingText (collapse type pending).2 ++ (collapse type pending).1.pretty.toList =
      pendingText pending ++ type.pretty.toList := by
  fun_induction collapse type pending with
  | case1 cod dom pending ih =>
      rw [ih, pendingText_cons, pretty_arrow_toList]
      simp [Pending.text]
  | case2 => rfl

theorem Part.eq_var_of_type? {letters : List Char} {type : Ty}
    (whole : (name letters).type? = some type) : type = var (String.ofList letters.reverse) := by
  rw [type?] at whole
  split at whole
  · cases whole
  · exact (Option.some.inj whole).symm

/-- A name by itself is written as it is in the domain of an arrow. -/
theorem Part.text_name {letters : List Char} {type : Ty}
    (whole : (name letters).type? = some type) : (name letters).text = type.pretty.toList := by
  rw [eq_var_of_type? whole, pretty, String.toList_ofList, text]

theorem Part.text_of_type? {part : Part} {type : Ty} (whole : part.type? = some type) :
    part.text = type.domainText := by
  cases part with
  | name letters =>
      rw [text_name whole, eq_var_of_type? whole]
      rfl
  | group dom cod =>
      cases whole
      rfl

/-- At every point what has been read and what is left make up the written form of the type that is
accepted in the end. -/
theorem text_append_of_readRest {part : Part} {pending : List Pending} {rest : List Char}
    {type : Ty} (accepted : readRest part pending rest = some type) :
    pendingText pending ++ (part.text ++ rest) = type.pretty.toList := by
  fun_induction readRest part pending rest with
  | case1 pending rest ih =>
      rw [← ih accepted, pendingText_cons]
      simp [Pending.text, Part.text]
  | case2 part pending rest ih =>
      obtain ⟨dom, whole, continued⟩ := Option.bind_eq_some_iff.mp accepted
      rw [← ih dom continued, pendingText_cons, Part.text_of_type? whole]
      simp [Pending.text, Part.text]
  | case3 letters pending rest ih =>
      obtain ⟨last, whole, closed⟩ := Option.bind_eq_some_iff.mp accepted
      obtain ⟨⟨dom, cod, outer⟩, ended, continued⟩ := Option.bind_eq_some_iff.mp closed
      have collapsed := pendingText_collapse last pending
      rw [endGroup_eq_some_iff.mp ended, pendingText_cons] at collapsed
      rw [← ih dom cod outer continued, Part.text_name whole]
      simpa [Part.text, domainText, isArrow, Pending.text] using
        congrArg (· ++ ')' :: rest) collapsed.symm
  | case4 letters pending =>
      obtain ⟨last, whole, ended⟩ := Option.bind_eq_some_iff.mp accepted
      have collapsed := pendingText_collapse last pending
      rw [endText_eq_some_iff.mp ended] at collapsed
      rw [Part.text_name whole, List.append_nil, ← collapsed]
      rfl
  | case5 letters pending c rest _ _ _ _ ih => simp [← ih accepted, Part.text]
  | _ => cases accepted

theorem pretty_of_read? {text : String} {type : Ty} (accepted : read? text = some type) :
    type.pretty = text :=
  String.toList_injective (text_append_of_readRest accepted).symm

/-! ## Names -/

theorem isLetter_of_isNamePart {c : Char} (part : isNamePart c = true) : isLetter c = true := by
  have no_mark : ∀ mark ∈ [' ', '(', ')'], isNamePart mark = false := by
    simp [isNamePart, isNameStart]
  rw [isLetter, decide_eq_true_eq]
  intro mark
  exact Bool.false_ne_true ((no_mark c mark).symm.trans part)

theorem isLetter_of_isNameRest {rest : List Char} (named : isNameRest rest = true) :
    ∀ c ∈ rest, isLetter c = true := by
  fun_induction isNameRest rest with
  | case1 => simp
  | case2 => simp [isLetter]
  | case3 c rest _ ih =>
      obtain ⟨part, rest_named⟩ := Bool.and_eq_true_iff.mp named
      exact List.forall_mem_cons.mpr ⟨isLetter_of_isNamePart part, ih rest_named⟩

theorem legible_of_isWritable {name : String} (writable : isWritable name = true) :
    (var name).Legible := by
  rw [isWritable] at writable
  split at writable
  · cases writable
  · rename_i start rest chars
    obtain ⟨starts, named⟩ := Bool.and_eq_true_iff.mp writable
    have start_part : isNamePart start = true := by rw [isNamePart, starts, Bool.true_or]
    refine ⟨?_, ?_⟩
    · rintro rfl
      cases chars
    · rw [chars, List.forall_mem_cons]
      exact ⟨isLetter_of_isNamePart start_part, isLetter_of_isNameRest named⟩

theorem legible_drawnName (number : Nat) : (var (drawnName number)).Legible := by
  have chars : (drawnName number).toList = '_' :: (toString number).toList := by
    rw [drawnName, String.toList_append]
    rfl
  refine ⟨?_, ?_⟩
  · intro empty
    simp [empty] at chars
  · rw [chars, List.forall_mem_cons]
    refine ⟨by decide, fun c member => ?_⟩
    rw [Nat.toString_eq_ofList_toDigits, String.toList_ofList] at member
    exact isLetter_of_isNamePart
      (isNamePart_of_isDigit (Nat.isDigit_of_mem_toDigits (by decide) (by decide) member))

end Ty

/-! ## Types as they are built -/

namespace RawTy

/-- Types that are built from written and drawn variables, one arrow after the other. -/
inductive Built : RawTy → Prop where
  /-- A variable whose name may be written. -/
  | variable {name : Datum} {type : RawTy} (made : var? name = .ok type) : Built type
  /-- A variable drawn from a supply. -/
  | drawn (supply : Supply) : Built (ofTy (Supply.fresh.run supply).1)
  /-- The type of functions between two types that are built. -/
  | function {dom cod type : RawTy} (dom_built : Built dom) (cod_built : Built cod)
      (made : arrow? dom cod = .ok type) : Built type

/-- The type that a text is the written form of. -/
def read? (text : String) : Option RawTy :=
  (Ty.read? text).map ofTy

theorem toTy?_ofTy (type : Ty) : (ofTy type).toTy? = some type := by
  induction type with
  | var name => rfl
  | arrow dom cod dom_ih cod_ih => simp [ofTy, toTy?, dom_ih, cod_ih]

theorem ofTy_injective : Function.Injective ofTy := by
  intro left right same
  exact Option.some.inj ((toTy?_ofTy left).symm.trans (same ▸ toTy?_ofTy right))

theorem isArrow?_ofTy (type : Ty) : (ofTy type).isArrow? = .ok type.isArrow := by
  cases type <;> rfl

theorem pretty?_ofTy (type : Ty) : (ofTy type).pretty? = .ok type.pretty := by
  induction type with
  | var name => rfl
  | arrow dom cod dom_ih cod_ih =>
      have no_variable : arrowHead ≠ variableHead := by decide
      have no_data (value : Datum) : ofTy dom ≠ alien value := by cases dom <;> exact nofun
      rw [ofTy, pretty?, if_neg no_variable, dom_ih, isArrow?_ofTy, cod_ih]
      · rfl
      · exact no_data

theorem arrow?_ofTy (dom cod : Ty) :
    arrow? (ofTy dom) (ofTy cod) = .ok (ofTy (.arrow dom cod)) := by
  cases dom <;> cases cod <;> rfl

theorem var?_eq_ok {name : Datum} {type : RawTy} (made : var? name = .ok type) :
    ∃ text, Ty.isWritable text = true ∧ type = ofTy (.var text) := by
  unfold var? at made
  split at made
  · split at made
    · cases made
      exact ⟨_, ‹_›, rfl⟩
    · cases made
  · cases made

/-- Types that are built are proper types in which the names of the variables can be told from what
is around them. -/
theorem Built.exists_legible {type : RawTy} (built : type.Built) :
    ∃ proper : Ty, proper.Legible ∧ type = ofTy proper := by
  induction built with
  | «variable» made =>
      obtain ⟨text, writable, rfl⟩ := var?_eq_ok made
      exact ⟨.var text, Ty.legible_of_isWritable writable, rfl⟩
  | drawn supply => exact ⟨.var (Ty.drawnName supply.next), Ty.legible_drawnName _, rfl⟩
  | function _ _ made dom_ih cod_ih =>
      obtain ⟨dom, dom_legible, rfl⟩ := dom_ih
      obtain ⟨cod, cod_legible, rfl⟩ := cod_ih
      rw [arrow?_ofTy] at made
      exact ⟨.arrow dom cod, ⟨dom_legible, cod_legible⟩, (Except.ok.inj made).symm⟩

/--
Types that are built have a written form, from which the reader gets them back, and it gets them
from no other text. Two of them are written alike only if they are the same type.
-/
theorem built_types_are_read_back {first second : RawTy} (first_built : first.Built)
    (second_built : second.Built) :
    (∃ text, first.pretty? = .ok text) ∧
      (∀ text, read? text = some first ↔ first.pretty? = .ok text) ∧
        (first.pretty? = second.pretty? ↔ first = second) := by
  obtain ⟨left, left_legible, rfl⟩ := first_built.exists_legible
  obtain ⟨right, right_legible, rfl⟩ := second_built.exists_legible
  simp only [pretty?_ofTy, Except.ok.injEq, ofTy_injective.eq_iff]
  refine ⟨⟨left.pretty, rfl⟩, fun text => ⟨fun read => ?_, ?_⟩, ?_, congrArg Ty.pretty⟩
  · obtain ⟨found, accepted, same⟩ := Option.map_eq_some_iff.mp read
    rw [← ofTy_injective same]
    exact Ty.pretty_of_read? accepted
  · rintro rfl
    rw [read?, left_legible.read?_pretty]
    rfl
  · intro same
    have left_read := left_legible.read?_pretty
    rw [same, right_legible.read?_pretty] at left_read
    exact (Option.some.inj left_read).symm

/-- `(a -> _3) -> a` and `a -> _3 -> a` are told apart by the parentheses, also if the name of one
variable ends in a line feed and the other one has been drawn. -/
theorem groupings_of_arrows_are_told_apart :
    let written := var "a\n"
    let drawn := ofTy (Supply.fresh.run ⟨3⟩).1
    let grouped := node arrowHead (node arrowHead written drawn) written
    let inTurn := node arrowHead written (node arrowHead drawn written)
    grouped.Built ∧ inTurn.Built ∧ grouped.pretty? ≠ inTurn.pretty? ∧
      (∃ text, grouped.pretty? = .ok text) ∧
        ∀ text, read? text = some grouped ↔ grouped.pretty? = .ok text := by
  intro written drawn grouped inTurn
  have written_built : written.Built := .variable (show var? (.literal (.text "a\n")) = _ from rfl)
  have drawn_built : drawn.Built := .drawn ⟨3⟩
  have grouped_built : grouped.Built :=
    .function (.function written_built drawn_built rfl) written_built rfl
  have inTurn_built : inTurn.Built :=
    .function written_built (.function drawn_built written_built rfl) rfl
  obtain ⟨has_text, read_back, told_apart⟩ := built_types_are_read_back grouped_built inTurn_built
  have different : grouped ≠ inTurn := by simp [grouped, inTurn, written]
  exact ⟨grouped_built, inTurn_built, told_apart.not.mpr different, has_text, read_back⟩

end RawTy
end Combinatory
