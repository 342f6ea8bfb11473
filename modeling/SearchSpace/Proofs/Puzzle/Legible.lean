import SearchSpace.Proofs.Expr.Text
import SearchSpace.Proofs.Puzzle.Bounds
import SearchSpace.Proofs.Puzzle.Key

/-!
# Puzzles of equal texts

The text of a puzzle is its key, and names may be anything. With a variable called `5` two puzzles
that differ can have the same text: one is solved and the other is not. If all names are plain the
text tells the values of the variables, the target and, but for products of one operand, the
expression. So puzzles of equal texts cannot be told apart, and neither can the puzzles that the
same steps lead to.
-/

namespace SearchSpace.Puzzle

variable {puzzle next a b : Puzzle}

/-- The first name of an assignment and its value are followed by the other entries, if any. -/
theorem toList_entriesText_cons (name : String) (value : UInt8) (more : List (String × UInt8)) :
    (entriesText ((name, value) :: more)).toList =
      name.toList ++ ':' :: ' ' :: ((toString value.toNat).toList ++
        if more = [] then [] else ',' :: ' ' :: (entriesText more).toList) := by
  cases more with
  | nil => simp [entriesText]
  | cons => simp [entriesText]

theorem toList_digit_inj {left right : UInt8} {rest rest' : List Char}
    (small : left ≤ greatestDigit) (small' : right ≤ greatestDigit)
    (same : (toString left.toNat).toList ++ rest = (toString right.toNat).toList ++ rest') :
    left = right ∧ rest = rest' := by
  have strings : toString left.toNat ++ String.ofList rest =
      toString right.toNat ++ String.ofList rest' := by
    apply String.toList_inj.1
    simpa using same
  have ⟨values, rests⟩ := digit_append_inj small small' strings
  exact ⟨values, String.ofList_injective rests⟩

/-- Plain names and digits can be read off the text of an assignment, up to the closing brace. -/
theorem entries_eq_of_text {entries others : List (String × UInt8)} {rest rest' : List Char}
    (plain : ∀ entry ∈ entries, PlainName entry.1 ∧ entry.2 ≤ greatestDigit)
    (plain' : ∀ entry ∈ others, PlainName entry.1 ∧ entry.2 ≤ greatestDigit)
    (same : (entriesText entries).toList ++ '}' :: rest =
      (entriesText others).toList ++ '}' :: rest') : entries = others ∧ rest = rest' := by
  -- A brace where a name could start is the end.
  have noName {name : String} {rest rest' : List Char} (plain : PlainName name) :
      '}' :: rest ≠ name.toList ++ ':' :: rest' := by
    intro same
    have noWord : ∀ c ∈ ([] : List Char), isSeparator c = false := by simp
    obtain ⟨empty, _⟩ := word_append_inj noWord plain.word (endsWord_cons rfl) (endsWord_cons rfl)
      same
    exact plain.toList_ne_nil empty.symm
  induction entries generalizing others with
  | nil =>
    cases others with
    | nil => simpa [entriesText] using same
    | cons other more' =>
      obtain ⟨name, value⟩ := other
      rw [toList_entriesText_cons, List.append_assoc] at same
      exact absurd same (noName (plain' _ List.mem_cons_self).1)
  | cons entry more ih =>
    obtain ⟨name, value⟩ := entry
    obtain ⟨⟨plainName, small⟩, plain⟩ := List.forall_mem_cons.1 plain
    cases others with
    | nil =>
      rw [toList_entriesText_cons, List.append_assoc] at same
      exact absurd same.symm (noName plainName)
    | cons other more' =>
      obtain ⟨name', value'⟩ := other
      obtain ⟨⟨plainName', small'⟩, plain'⟩ := List.forall_mem_cons.1 plain'
      simp only [toList_entriesText_cons, List.append_assoc, List.cons_append] at same
      obtain ⟨names, values⟩ := word_append_inj plainName.word plainName'.word (endsWord_cons rfl)
        (endsWord_cons rfl) same
      simp only [List.cons.injEq, true_and] at values
      obtain ⟨digits, others⟩ := toList_digit_inj small small' values
      have entries : (name, value) = (name', value') :=
        Prod.ext (String.toList_inj.1 names) digits
      by_cases last : more = []
      · by_cases last' : more' = []
        · subst last last'
          simpa [entries] using others
        · simp [last, last'] at others
      · by_cases last' : more' = []
        · simp [last, last'] at others
        · simp only [if_neg last, if_neg last', List.cons_append, List.cons.injEq,
            true_and] at others
          obtain ⟨same, rests⟩ := ih plain plain' others
          exact ⟨by rw [entries, same], rests⟩

/-- Built puzzles whose variables have plain names. -/
def legible : Set Puzzle :=
  {puzzle | puzzle.WellFormed ∧ puzzle.tree.Legible ∧ ∀ name ∈ puzzle.tree.names, PlainName name}

theorem mem_legible (built : puzzle.Built) (plain : ∀ name ∈ puzzle.tree.names, PlainName name) :
    puzzle ∈ legible :=
  ⟨.of_built built,
    Expr.legible_of_flaw?_eq_none puzzle.tree (flaw?_eq_none_of_built built) plain, plain⟩

theorem legible_closed (inside : puzzle ∈ legible) (successor : next ∈ space.successors puzzle) :
    next ∈ legible := by
  have ⟨wellFormed, legible, plain⟩ := inside
  have wellFormed' := wellFormed.successor successor
  obtain ⟨name, -, value, -, rfl⟩ := mem_successors.1 successor
  exact ⟨wellFormed', legible, plain⟩

theorem toList_text (puzzle : Puzzle) : puzzle.text.toList =
    '\x7b' :: ((entriesText puzzle.assignment.entries).toList ++ '}' :: '\n' ::
      (puzzle.tree.text.toList ++ ' ' :: '=' :: ' ' :: (toString puzzle.target.toNat).toList)) := by
  simp [text]

/-- What differs between puzzles of equal texts, which is nothing that matters. -/
structure Alike (a b : Puzzle) : Prop where
  assignment_eq : a.assignment = b.assignment
  normal_eq : a.tree.normal = b.tree.normal
  text_eq : a.tree.text = b.tree.text
  target_eq : a.target = b.target

theorem alike_of_text_eq (left : a ∈ legible) (right : b ∈ legible) (same : a.text = b.text) :
    a.Alike b := by
  have ⟨wellFormed, legible, plain⟩ := left
  have ⟨wellFormed', legible', plain'⟩ := right
  have plainEntries {puzzle : Puzzle} (inside : puzzle ∈ Puzzle.legible) :
      ∀ entry ∈ puzzle.assignment.entries, PlainName entry.1 ∧ entry.2 ≤ greatestDigit := by
    intro entry member
    have known := (inside.1.mem_names_iff entry.1).1 (List.mem_map_of_mem member)
    exact ⟨inside.2.2 entry.1 known, inside.1.entries_le entry member⟩
  have chars := congrArg String.toList same
  rw [toList_text, toList_text, List.cons.injEq] at chars
  obtain ⟨entries, equations⟩ :=
    entries_eq_of_text (plainEntries left) (plainEntries right) chars.2
  simp only [List.cons.injEq, true_and] at equations
  obtain ⟨normals, targets⟩ := Expr.normal_eq_of_text legible' (endsWord_cons rfl)
    (endsWord_cons rfl) a.tree legible equations
  rw [targets, List.append_left_inj] at equations
  simp only [List.cons.injEq, true_and] at targets
  exact ⟨Assignment.eq_of_entries_eq entries, normals, String.toList_inj.1 equations,
    toString_toNat_inj targets⟩

namespace Alike

variable (alike : a.Alike b)

include alike

theorem openVariables_eq : a.openVariables = b.openVariables := by
  rw [openVariables, openVariables, alike.assignment_eq]

theorem valueFilling_eq (fill : UInt8) : a.valueFilling fill = b.valueFilling fill := by
  have filled : a.filledValue fill = b.filledValue fill := by
    funext name
    rw [filledValue, filledValue, alike.assignment_eq]
  rw [valueFilling, valueFilling, filled, ← Expr.eval_normal, alike.normal_eq, Expr.eval_normal]

theorem isSolved_eq : a.isSolved = b.isSolved := by
  rw [isSolved, isSolved, alike.openVariables_eq, alike.valueFilling_eq, alike.target_eq]

theorem isDeadEnd_eq : a.isDeadEnd = b.isDeadEnd := by
  rw [Bool.eq_iff_iff, isDeadEnd_iff, isDeadEnd_iff, alike.openVariables_eq, alike.valueFilling_eq,
    alike.valueFilling_eq, alike.target_eq]

theorem text_setVariable_eq (name : String) (value : UInt8) :
    (a.setVariable name value).text = (b.setVariable name value).text := by
  simp only [text, setVariable, alike.assignment_eq, alike.text_eq, alike.target_eq]

theorem successors_eq : a.successors.map text = b.successors.map text := by
  simp only [successors, List.map_flatMap, List.map_map, alike.openVariables_eq]
  congr
  funext name
  apply List.map_congr_left
  intro value _
  exact alike.text_setVariable_eq name value

end Alike

theorem lawfulOn_legible : space.LawfulOn legible where
  closed := legible_closed
  isGoal_eq left right same := (alike_of_text_eq left right same).isSolved_eq
  isDeadEnd_eq left right same := (alike_of_text_eq left right same).isDeadEnd_eq
  successors_eq left right same := (alike_of_text_eq left right same).successors_eq

/-- Puzzles that no search can tell apart at once. -/
structure Interchangeable (a b : Puzzle) : Prop where
  text_eq : a.text = b.text
  isSolved_eq : a.isSolved = b.isSolved
  isDeadEnd_eq : a.isDeadEnd = b.isDeadEnd
  successors_eq : a.successors.map text = b.successors.map text

theorem interchangeable_of_mem_legible (left : a ∈ legible) (right : b ∈ legible)
    (same : a.text = b.text) : a.Interchangeable b where
  text_eq := same
  isSolved_eq := lawfulOn_legible.isGoal_eq left right same
  isDeadEnd_eq := lawfulOn_legible.isDeadEnd_eq left right same
  successors_eq := lawfulOn_legible.successors_eq left right same

/-- Puzzles of equal texts whose variables have plain names are interchangeable, and the same steps
from them pass puzzles that are interchangeable again. -/
theorem interchangeable_of_text_eq (built : a.Built) (built' : b.Built)
    (plain : ∀ name ∈ a.tree.names, PlainName name)
    (plain' : ∀ name ∈ b.tree.names, PlainName name) (same : a.text = b.text) :
    a.Interchangeable b ∧
    ∀ positions states, space.Walk a positions states →
      ∃ others, space.Walk b positions others ∧ states.Forall₂ Interchangeable others := by
  have left := mem_legible built plain
  have right := mem_legible built' plain'
  refine ⟨interchangeable_of_mem_legible left right same, ?_⟩
  intro positions states walk
  clear built built' plain plain'
  induction walk generalizing b with
  | stay a => exact ⟨[b], .stay b, .cons (interchangeable_of_mem_legible left right same) .nil⟩
  | move taken _ ih =>
    obtain ⟨next', taken', same'⟩ := lawfulOn_legible.exists_successor left right same taken
    have left' := legible_closed left (List.mem_of_getElem? taken)
    have right' := legible_closed right (List.mem_of_getElem? taken')
    obtain ⟨others, walk', alike⟩ := ih same' left' right'
    exact ⟨b :: others, .move taken' walk',
      .cons (interchangeable_of_mem_legible left right same) alike⟩

/-- A sum of one operand. -/
def loneSum : Puzzle where
  tree := .add [.add [.var "y", .num 2]]
  assignment := ⟨[("y", 0)], by decide⟩
  target := 5

/-- The product of the same operand, which reads the same. -/
def loneProduct : Puzzle := { loneSum with tree := .mul [.add [.var "y", .num 2]] }

theorem interchangeable_of_text_eq_loneSum : loneSum ≠ loneProduct ∧
    loneSum.Built ∧ loneProduct.Built ∧ loneSum.text = loneProduct.text ∧
    loneSum.Interchangeable loneProduct := by
  have created : create loneSum.tree 5 ∅ = .ok loneSum := rfl
  have created' : create loneProduct.tree 5 ∅ = .ok loneProduct := rfl
  have built : loneSum.Built := .create created
  have built' : loneProduct.Built := .create created'
  have plain : PlainName "y" := ⟨by simp [isSeparator], 'y', by simp, rfl⟩
  have same : loneSum.text = loneProduct.text := rfl
  refine ⟨by decide, built, built', same, ?_⟩
  have plainSum : ∀ name ∈ loneSum.tree.names, PlainName name := by
    intro name member
    rw [List.mem_singleton.1 member]
    exact plain
  have plainProduct : ∀ name ∈ loneProduct.tree.names, PlainName name := by
    intro name member
    rw [List.mem_singleton.1 member]
    exact plain
  exact (interchangeable_of_text_eq built built' plainSum plainProduct same).1

/-- A variable called `5` is added to the double of the number 5. -/
def numberDoubled : Puzzle where
  tree := .add [.var "5", .mul [.num 5, .num 2]]
  assignment := ⟨[("5", 1)], by decide⟩
  target := 11

/-- The number 5 is added to the double of a variable called `5`. -/
def variableDoubled : Puzzle :=
  { numberDoubled with tree := .add [.num 5, .mul [.var "5", .num 2]] }

/-- Names that are not plain can make texts ambiguous: with 1 for the variable only one of two
puzzles of equal texts is solved, and only the other one is given up. -/
theorem text_ambiguous : numberDoubled.Built ∧ variableDoubled.Built ∧
    numberDoubled.text = variableDoubled.text ∧
    numberDoubled.isSolved = true ∧ variableDoubled.isSolved = false ∧
    numberDoubled.isDeadEnd = false ∧ variableDoubled.isDeadEnd = true := by
  have created : create numberDoubled.tree 11 numberDoubled.assignment = .ok numberDoubled := rfl
  have created' : create variableDoubled.tree 11 variableDoubled.assignment =
    .ok variableDoubled := rfl
  exact ⟨.create created, .create created', rfl, rfl, rfl, rfl, rfl⟩

end SearchSpace.Puzzle
