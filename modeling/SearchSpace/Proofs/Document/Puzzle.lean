import SearchSpace.Document.Puzzle
import SearchSpace.Proofs.Assignment
import SearchSpace.Proofs.Document.Expr

/-!
# Descriptions of puzzles are read as they were written

The entries of an assignment are written in the order of their names and each of them is read behind
those before it, so the assignment that is read has the same entries. The fields of a description
are written in the order of its structure. A description that was read from any document, however it
is laid out, has an expression that fits within the allowed depth and can be written and read again.
-/

namespace SearchSpace

open Json (ReadError Reader Reads ReadsEntries)

variable {steps nesting : Nat} {text rest : List Char}

namespace Assignment

variable {assignment known : Assignment} {name : String} {value : UInt8}
  {entries : List (String × UInt8)}

/-- A name behind all others is entered at the end. -/
theorem insertEntry_eq_append (above : ∀ entry ∈ entries, entry.1 < name) :
    insertEntry name value entries = entries ++ [(name, value)] := by
  induction entries with
  | nil => rfl
  | cons entry entries ih =>
    have ⟨less, others⟩ := List.forall_mem_cons.1 above
    unfold insertEntry
    rw [if_neg (String.lt_asymm less), if_neg (String.ne_of_lt less).symm, ih others,
      List.cons_append]

theorem reads_entry (name : String) (value : UInt8) (known : Assignment) :
    Reads steps nesting (fun text => readEntry name known (':' :: text)) (.number value.toNat)
      (known.insert name value) := by
  have below : value.toNat < UInt8.size := value.toNat_lt
  have small : value.toNat < UInt64.size := Nat.lt_trans below (by decide)
  have number : Reads steps nesting (Json.readNatural "u8" UInt8.size) (.number value.toNat)
      value.toNat := Json.reads_natural below small
  have reads := number.map fun value => known.insert name (UInt8.ofNat value)
  rw [UInt8.ofNat_toNat] at reads
  exact reads

/-- The entries that have not been read yet complete the assignment. -/
theorem readsEntries (complete : known.entries ++ entries = assignment.entries) :
    ReadsEntries steps nesting readEntry known
      (entries.map fun entry => (entry.1, .number entry.2.toNat)) assignment := by
  induction entries generalizing known with
  | nil =>
    rw [List.append_nil] at complete
    rw [eq_of_entries_eq complete]
    exact .nil assignment
  | cons entry entries ih =>
    have ordered := assignment.ordered
    rw [← complete, List.pairwise_append] at ordered
    have above : ∀ before ∈ known.entries, before.1 < entry.1 := by
      intro before member
      exact ordered.2.2 before member entry List.mem_cons_self
    refine .cons (reads_entry entry.1 entry.2 known) (ih ?_)
    show insertEntry entry.1 entry.2 known.entries ++ entries = assignment.entries
    rw [insertEntry_eq_append above, List.append_assoc]
    exact complete

theorem reads_toJson (assignment : Assignment) :
    Reads steps nesting (read steps nesting) assignment.toJson assignment := by
  have reads (nesting : Nat) : ReadsEntries steps nesting readEntry ∅
      (assignment.entries.map fun entry => (entry.1, .number entry.2.toNat)) assignment :=
    readsEntries (List.nil_append _)
  unfold toJson
  apply Json.reads_object reads
  · intro text
    simp only [read, Json.skipBlank_openBrace]
  · intro nesting depth text rest isRead
    simp only [read, Json.skipBlank_openBrace]
    exact isRead

end Assignment

namespace Puzzle.Description

variable {description : Description}

/-! ## Written descriptions -/

theorem readsEntries (description : Description) :
    ReadsEntries steps nesting (readEntry steps nesting) {}
      [("tree", description.tree.toJson), ("target", .number description.target.toNat),
        ("variables", description.assignment.toJson)]
      { tree := some description.tree, target := some description.target,
        assignment := some description.assignment } := by
  obtain ⟨tree, target, assignment⟩ := description
  have readsTree : Reads steps nesting (fun text => readEntry steps nesting "tree" {} (':' :: text))
      tree.toJson { tree } :=
    Json.reads_field "tree" (fun value : Expr => ({ tree := value } : Fields))
      (tree.reads_toJson steps nesting)
  have readsTarget : Reads steps nesting
      (fun text => readEntry steps nesting "target" { tree } (':' :: text))
      (.number target.toNat) { tree, target } :=
    Json.reads_field "target" (fun value : UInt64 => ({ tree, target := value } : Fields))
      (reads_uint64 "u64" target)
  have readsAssignment : Reads steps nesting
      (fun text => readEntry steps nesting "variables" { tree, target } (':' :: text))
      assignment.toJson { tree, target, assignment } :=
    Json.reads_field "variables"
      (fun value : Assignment => ({ tree, target, assignment := value } : Fields))
      assignment.reads_toJson
  exact .cons readsTree (.cons readsTarget (.cons readsAssignment (.nil _)))

theorem reads_toJson (description : Description) :
    Reads steps nesting (read steps nesting) description.toJson description := by
  unfold toJson
  apply Json.reads_object fun nesting => readsEntries description
  · intro text
    simp only [read, Json.readStruct, Json.skipBlank_openBrace]
  · intro nesting depth text rest isRead
    simp only [read, Json.readStruct, Json.skipBlank_openBrace, readFields]
    rw [isRead]
    exact Json.readAs_bind_ok rfl

/-! ## Descriptions that have been read -/

theorem depth_toJson (description : Description) :
    description.toJson.depth = description.tree.toJson.depth + 1 := by
  have positive := description.tree.depth_toJson_pos
  have flat (entries : List (String × UInt8)) : Json.Value.depthOfEntries
      (entries.map fun entry => (entry.1, .number entry.2.toNat)) = 0 := by
    induction entries with
    | nil => rfl
    | cons entry entries ih =>
      rw [List.map_cons, Json.Value.depthOfEntries, Json.Value.depth, ih]
      rfl
  simp only [toJson, Assignment.toJson, Json.Value.depth, Json.Value.depthOfEntries, flat]
  omega

/-- The expression that is known, if any, fits within the given depth. -/
def Fields.Shallow (nesting : Nat) (fields : Fields) : Prop :=
  ∀ tree, fields.tree = some tree → tree.toJson.depth ≤ nesting

theorem shallow_of_readEntry {key : String} {fields later : Fields}
    (shallow : fields.Shallow nesting)
    (isRead : readEntry steps nesting key fields text = .ok (later, rest)) :
    later.Shallow nesting := by
  unfold readEntry at isRead
  split at isRead
  case h_1 =>
    obtain ⟨⟨tree, rest⟩, readTree, isRead⟩ := Json.exists_of_bind_eq_ok isRead
    cases isRead
    intro tree same
    cases same
    obtain ⟨text, readTree⟩ := Json.exists_of_readField readTree
    exact Expr.depth_toJson_le readTree
  case h_2 | h_3 =>
    obtain ⟨⟨other, rest⟩, -, isRead⟩ := Json.exists_of_bind_eq_ok isRead
    cases isRead
    exact shallow
  case h_4 =>
    unfold Json.skipField at isRead
    obtain ⟨value, -, isRead⟩ := Json.exists_of_bind_eq_ok isRead
    obtain ⟨rest, -, isRead⟩ := Json.exists_of_bind_eq_ok isRead
    cases isRead
    exact shallow

theorem depth_tree_le_of_readFields
    (isRead : readFields steps nesting text = .ok (description, rest)) :
    description.tree.toJson.depth ≤ nesting := by
  unfold readFields at isRead
  obtain ⟨⟨fields, tail⟩, readEntries, isRead⟩ := Json.exists_of_bind_eq_ok isRead
  obtain ⟨tree, hasTree, isRead⟩ := Json.exists_of_bind_eq_ok isRead
  obtain ⟨target, -, isRead⟩ := Json.exists_of_bind_eq_ok isRead
  cases isRead
  have init : Fields.Shallow nesting {} := by
    intro tree same
    cases same
  have shallow : fields.Shallow nesting := by
    refine Json.readEntries_induction init ?_ readEntries
    intro key known text next rest shallow isRead
    exact shallow_of_readEntry shallow isRead
  exact shallow tree (Json.eq_some_of_requireField hasTree)

theorem depth_tree_le_of_readElements
    (isRead : readElements steps nesting text = .ok (description, rest)) :
    description.tree.toJson.depth ≤ nesting := by
  unfold readElements at isRead
  obtain ⟨⟨tree, behindTree⟩, readTree, isRead⟩ := Json.exists_of_bind_eq_ok isRead
  obtain ⟨⟨target, behindTarget⟩, -, isRead⟩ := Json.exists_of_bind_eq_ok isRead
  obtain ⟨next?, -, isRead⟩ := Json.exists_of_bind_eq_ok isRead
  obtain ⟨text, readTree⟩ := Json.readElement_ok readTree
  have shallow := Expr.depth_toJson_le readTree
  cases next? with
  | none =>
    cases isRead
    exact shallow
  | some next =>
    obtain ⟨⟨assignment, rest⟩, -, isRead⟩ := Json.exists_of_bind_eq_ok isRead
    cases isRead
    exact shallow

/-- No more lists and objects lie within one another than may be entered. -/
theorem depth_toJson_le (isRead : read steps nesting text = .ok (description, rest)) :
    description.toJson.depth ≤ nesting := by
  unfold read at isRead
  obtain ⟨inner, rfl, text, rest, readFields | readElements⟩ := Json.exists_of_readStruct isRead
  · rw [depth_toJson]
    exact Nat.succ_le_succ (depth_tree_le_of_readFields readFields)
  · rw [depth_toJson]
    exact Nat.succ_le_succ (depth_tree_le_of_readElements readElements)

end Puzzle.Description

end SearchSpace
