import SearchSpace.Proofs.Json.Solid

/-!
# Written values

How deep the lists and objects of a value are nested, and what a written value looks like. The way
in which a value is written is one of those in which it can be laid out, so it starts as they do. It
takes at least one character for each of its elements or entries.
-/

namespace SearchSpace.Json

namespace Value

mutual

/-- The number of lists and objects that lie within one another. -/
def depth : Value → Nat
  | .null | .boolean _ | .number _ | .text _ => 0
  | .list elements => depthOfElements elements + 1
  | .object entries => depthOfEntries entries + 1

/-- The depth of the deepest element. -/
def depthOfElements : List Value → Nat
  | [] => 0
  | element :: elements => max (depth element) (depthOfElements elements)

/-- The depth of the deepest value. -/
def depthOfEntries : List (String × Value) → Nat
  | [] => 0
  | (_, value) :: entries => max (depth value) (depthOfEntries entries)

end

theorem depthOfElements_le {elements : List Value} {n : Nat}
    (shallow : ∀ element ∈ elements, element.depth ≤ n) : depthOfElements elements ≤ n := by
  induction elements with
  | nil => exact Nat.zero_le n
  | cons element elements ih =>
    have ⟨first, others⟩ := List.forall_mem_cons.1 shallow
    rw [depthOfElements]
    exact Nat.max_le.2 ⟨first, ih others⟩

/-! ## What layouts begin with -/

theorem solid_number (value : Nat) : Solid (Word (Nat.toDigits 10 value)) := by
  obtain ⟨digit, digits, eq, isDigit⟩ := exists_toDigits_eq_cons value
  rw [eq]
  exact solid_word (solid_digit isDigit)

mutual

theorem solid_layout : (value : Value) → Solid (Layout value)
  | .null => solid_word (by decide)
  | .boolean true => solid_word (by decide)
  | .boolean false => solid_word (by decide)
  | .number value => solid_number value
  | .text value => solid_quote (shrinks_spells value.toList)
  | .list elements => solid_listed fun form member => (solid_elements elements form member).shrinks
  | .object entries => solid_braced fun form member => (solid_entries entries form member).shrinks

theorem solid_elements : (elements : List Value) → ∀ form ∈ layoutsOfElements elements, Solid form
  | [] => by simp [layoutsOfElements]
  | element :: elements => List.forall_mem_cons.2 ⟨solid_layout element, solid_elements elements⟩

theorem solid_entries : (entries : List (String × Value)) →
    ∀ form ∈ layoutsOfEntries entries, Solid form
  | [] => by simp [layoutsOfEntries]
  | (key, value) :: entries => List.forall_mem_cons.2
    ⟨solid_entry (shrinks_spells _) (solid_layout value).shrinks, solid_entries entries⟩

end

/-! ## The layout that is written -/

mutual

/-- The way in which a value is written is one of those in which it can be laid out. -/
theorem layout_write : (value : Value) → (rest : List Char) → Layout value (write value rest) rest
  | .null, _ => rfl
  | .boolean true, _ => rfl
  | .boolean false, _ => rfl
  | .number _, _ => rfl
  | .text value, rest => ⟨_, rfl, spells_foldr_writeChar value.toList rest⟩
  | .list [], _ => .none .none
  | .list (element :: elements), rest =>
    .row (row_writeElements elements rest (layout_write element _))
  | .object [], _ => .none .none
  | .object ((key, value) :: entries), rest =>
    .row (row_writeEntries entries rest
      (.mk (spells_foldr_writeChar key.toList _) .none .none (layout_write value _)))

theorem row_writeElements : (elements : List Value) → (rest : List Char) →
    ∀ {form : Form} {text : List Char}, form text (writeElements elements rest) →
      Row ']' (form :: layoutsOfElements elements) text rest
  | [], _, _, _, first => .last .none first .none
  | element :: elements, rest, _, _, first =>
    .more .none first .none (row_writeElements elements rest (layout_write element _))

theorem row_writeEntries : (entries : List (String × Value)) → (rest : List Char) →
    ∀ {form : Form} {text : List Char}, form text (writeEntries entries rest) →
      Row '}' (form :: layoutsOfEntries entries) text rest
  | [], _, _, _, first => .last .none first .none
  | (key, value) :: entries, rest, _, _, first =>
    .more .none first .none (row_writeEntries entries rest
      (.mk (spells_foldr_writeChar key.toList _) .none .none (layout_write value _)))

end

theorem length_write (value : Value) (rest : List Char) :
    rest.length < (write value rest).length :=
  (solid_layout value).shrinks (layout_write value rest)

theorem length_writeString (value : String) (rest : List Char) :
    rest.length < (writeString value rest).length :=
  Nat.lt_succ_of_lt (shrinks_spells _ (spells_foldr_writeChar value.toList rest))

theorem length_writeElements (elements : List Value) (rest : List Char) :
    rest.length + elements.length < (writeElements elements rest).length := by
  induction elements with
  | nil => simp [writeElements]
  | cons element elements ih =>
    have first := length_write element (writeElements elements rest)
    simp only [writeElements, List.length_cons]
    omega

theorem length_writeEntries (entries : List (String × Value)) (rest : List Char) :
    rest.length + entries.length < (writeEntries entries rest).length := by
  induction entries with
  | nil => simp [writeEntries]
  | cons entry entries ih =>
    have first := length_writeString entry.1 (':' :: write entry.2 (writeEntries entries rest))
    have second := length_write entry.2 (writeEntries entries rest)
    simp only [writeEntries, List.length_cons] at first ⊢
    omega

/-- A written value starts with a character that is neither blank nor the end of a list. -/
theorem exists_write_eq_cons (value : Value) (rest : List Char) :
    ∃ c text, write value rest = c :: text ∧ isBlank c = false ∧ c ≠ ']' := by
  obtain ⟨c, text, eq, notBlank, noEnd, -⟩ := (solid_layout value).opens (layout_write value rest)
  exact ⟨c, text, eq, notBlank, noEnd⟩

theorem endsNumber_writeElements (elements : List Value) (rest : List Char) :
    EndsNumber (writeElements elements rest) := by
  cases elements <;> simp [EndsNumber, writeElements]

theorem endsNumber_writeEntries (entries : List (String × Value)) (rest : List Char) :
    EndsNumber (writeEntries entries rest) := by
  cases entries <;> simp [EndsNumber, writeEntries]

end Value

end SearchSpace.Json
