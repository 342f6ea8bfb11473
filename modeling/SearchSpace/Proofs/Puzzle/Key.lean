import Mathlib.Data.Fintype.BigOperators
import SearchSpace.Proofs.Puzzle.Built
import SearchSpace.Proofs.Walk

/-!
# The text of a puzzle as its key

Puzzles that extend one puzzle differ in their digits only, and each digit is one character. So
their texts tell them apart whatever the names are, and there are no more of them than ways to fill
the open variables with one of ten values each.
-/

namespace SearchSpace.Puzzle

theorem toList_toString_digit (digit : Fin 10) :
    (toString digit.val).toList = [Nat.digitChar digit.val] := by
  revert digit
  decide

theorem digitChar_inj {left right : Fin 10}
    (same : Nat.digitChar left.val = Nat.digitChar right.val) : left = right := by
  revert left right
  decide

variable {left right : UInt8} {rest rest' : String}

theorem digit_append_inj (small : left ≤ greatestDigit) (small' : right ≤ greatestDigit)
    (same : toString left.toNat ++ rest = toString right.toNat ++ rest') :
    left = right ∧ rest = rest' := by
  have lt : left.toNat < 10 := Nat.lt_succ_of_le (UInt8.le_iff_toNat_le.1 small)
  have lt' : right.toNat < 10 := Nat.lt_succ_of_le (UInt8.le_iff_toNat_le.1 small')
  have chars := congrArg String.toList same
  rw [String.toList_append, String.toList_append, toList_toString_digit ⟨_, lt⟩,
    toList_toString_digit ⟨_, lt'⟩] at chars
  obtain ⟨first, others⟩ := List.cons.inj chars
  have digits := congrArg Fin.val (digitChar_inj first)
  exact ⟨UInt8.toNat_inj.1 digits, String.toList_inj.1 others⟩

/-- With the same names the text of digits tells where it ends. -/
theorem entriesText_append_inj {entries entries' : List (String × UInt8)}
    (names : entries.map (·.1) = entries'.map (·.1))
    (small : ∀ entry ∈ entries, entry.2 ≤ greatestDigit)
    (small' : ∀ entry ∈ entries', entry.2 ≤ greatestDigit)
    (same : entriesText entries ++ rest = entriesText entries' ++ rest') :
    entries = entries' ∧ rest = rest' := by
  induction entries generalizing entries' with
  | nil =>
    obtain rfl : entries' = [] := by simpa using names.symm
    exact ⟨rfl, by simpa [entriesText] using same⟩
  | cons entry others ih =>
    obtain ⟨name, value⟩ := entry
    cases entries' with
    | nil => cases names
    | cons entry' others' =>
      obtain ⟨name', value'⟩ := entry'
      simp only [List.map_cons, List.cons.injEq] at names
      obtain ⟨rfl, sameNames⟩ := names
      have ⟨first, others_small⟩ := List.forall_mem_cons.1 small
      have ⟨first', others_small'⟩ := List.forall_mem_cons.1 small'
      cases others with
      | nil =>
        obtain rfl : others' = [] := by simpa using sameNames.symm
        simp only [entriesText, String.append_assoc, String.append_right_inj] at same
        obtain ⟨rfl, same_rest⟩ := digit_append_inj first first' same
        exact ⟨rfl, same_rest⟩
      | cons second more =>
        cases others' with
        | nil => cases sameNames
        | cons second' more' =>
          simp only [entriesText, String.append_assoc, String.append_right_inj] at same
          obtain ⟨rfl, same_others⟩ := digit_append_inj first first' same
          rw [String.append_right_inj] at same_others
          obtain ⟨others, same_rest⟩ := ih sameNames others_small others_small' same_others
          exact ⟨by rw [others], same_rest⟩

variable {puzzle a b : Puzzle}

theorem eq_of_entries_eq (tree : a.tree = b.tree) (target : a.target = b.target)
    (entries : a.assignment.entries = b.assignment.entries) : a = b := by
  obtain ⟨_, _, _⟩ := a
  obtain ⟨_, _, _⟩ := b
  cases tree
  cases target
  cases Assignment.eq_of_entries_eq entries
  rfl

/-- The puzzles that are reached from one. -/
def region (puzzle : Puzzle) : Set Puzzle := {other | puzzle.Extends other ∧ other.WellFormed}

theorem mem_region (wellFormed : puzzle.WellFormed) : puzzle ∈ puzzle.region :=
  ⟨.refl puzzle, wellFormed⟩

theorem region_closed {state next : Puzzle} (inside : state ∈ puzzle.region)
    (successor : next ∈ space.successors state) : next ∈ puzzle.region :=
  ⟨inside.1.successor successor, inside.2.successor successor⟩

/-- With the same names the text tells the values. -/
theorem entries_eq_of_text_eq (left : a.WellFormed) (right : b.WellFormed)
    (names : a.assignment.names = b.assignment.names) (same : a.text = b.text) :
    a.assignment.entries = b.assignment.entries := by
  simp only [text, String.append_assoc, String.append_right_inj] at same
  exact (entriesText_append_inj names left.entries_le right.entries_le same).1

/-- Puzzles reached from one puzzle are told apart by their texts. -/
theorem eq_of_text_eq (left : a ∈ puzzle.region) (right : b ∈ puzzle.region)
    (same : a.text = b.text) : a = b := by
  have tree := left.1.tree_eq.trans right.1.tree_eq.symm
  have target := left.1.target_eq.trans right.1.target_eq.symm
  have names := left.1.names_eq.trans right.1.names_eq.symm
  exact eq_of_entries_eq tree target (entries_eq_of_text_eq left.2 right.2 names same)

theorem lawfulOn_region (puzzle : Puzzle) : space.LawfulOn puzzle.region :=
  .of_injOn region_closed eq_of_text_eq

theorem entries_eq_map (puzzle : Puzzle) : puzzle.assignment.entries =
    puzzle.assignment.names.map fun name => (name, puzzle.valueOf name) := by
  have same : puzzle.assignment.entries.map (fun entry => (entry.1, puzzle.valueOf entry.1)) =
      puzzle.assignment.entries.map id := by
    apply List.map_congr_left
    intro entry member
    rw [valueOf_of_mem member]
    rfl
  rw [Assignment.names, List.map_map]
  exact (same.trans (List.map_id _)).symm

/-- Puzzles of one equation are equal if they give the same values to the same names. -/
theorem eq_of_valueOf_eq (tree : a.tree = b.tree) (target : a.target = b.target)
    (names : a.assignment.names = b.assignment.names)
    (values : ∀ name ∈ a.assignment.names, a.valueOf name = b.valueOf name) : a = b := by
  apply eq_of_entries_eq tree target
  rw [entries_eq_map a, entries_eq_map b, ← names]
  apply List.map_congr_left
  intro name known
  rw [values name known]

/-- The values of the open variables in a puzzle that was reached. -/
def fillingOf (puzzle other : Puzzle) (index : Fin puzzle.openVariables.length) : Fin 10 :=
  Fin.ofNat 10 (other.valueOf (puzzle.openVariables.get index)).toNat

theorem eq_of_fillingOf_eq (left : a ∈ puzzle.region) (right : b ∈ puzzle.region)
    (same : puzzle.fillingOf a = puzzle.fillingOf b) : a = b := by
  refine eq_of_valueOf_eq (left.1.tree_eq.trans right.1.tree_eq.symm)
    (left.1.target_eq.trans right.1.target_eq.symm)
    (left.1.names_eq.trans right.1.names_eq.symm) fun name known => ?_
  rw [left.1.names_eq] at known
  by_cases unset : puzzle.valueOf name = unassigned
  · have isOpen := mem_openVariables.2 ⟨known, unset⟩
    obtain ⟨index, rfl⟩ := List.get_of_mem isOpen
    have small := UInt8.le_iff_toNat_le.1 (left.2.valueOf_le (puzzle.openVariables.get index))
    have small' := UInt8.le_iff_toNat_le.1 (right.2.valueOf_le (puzzle.openVariables.get index))
    have digits := congrArg Fin.val (congrFun same index)
    simp only [fillingOf, Fin.ofNat, greatestDigit, UInt8.reduceToNat] at digits small small'
    apply UInt8.toNat_inj.1
    omega
  · rw [left.1.kept name unset, right.1.kept name unset]

/-- There are at most as many puzzles to reach as ways to fill the open variables. -/
theorem length_le_of_nodup {states : List Puzzle} (inside : ∀ state ∈ states, state ∈ puzzle.region)
    (distinct : (states.map space.key).Nodup) :
    states.length ≤ 10 ^ puzzle.openVariables.length := by
  have fillings : (states.map puzzle.fillingOf).Nodup := by
    apply distinct.of_map.map_on
    intro left member right member' same
    exact eq_of_fillingOf_eq (inside left member) (inside right member') same
  have card := fillings.length_le_card
  rwa [List.length_map, Fintype.card_fun, Fintype.card_fin, Fintype.card_fin] at card

end SearchSpace.Puzzle
