import SearchSpace.Document.Limits
import SearchSpace.Proofs.Document.Puzzle

/-!
# What is written is read again

Expressions, descriptions of puzzles and limits are read back from their compact texts exactly if at
most 127 lists and objects lie within one another there. A description that was read from a document
of any form is shallow enough, so writing it changes nothing that matters.
-/

namespace SearchSpace

open Json (ReadError Reader Reads ReadsEntries)

variable {steps nesting : Nat}

namespace Limits

theorem reads_bound (bound : Option UInt64) :
    Reads steps nesting readBound
      (match bound with
        | some limit => .number limit.toNat
        | none => .null) bound := by
  cases bound with
  | none => exact Json.reads_optional_null _
  | some limit => exact Json.reads_optional_number (reads_uint64 "usize" limit)

theorem readsEntries (limits : Limits) :
    ReadsEntries steps nesting (readEntry steps) {}
      [("maxDepth", .number limits.maxDepth.toNat),
        ("maxExpansions", match limits.maxExpansions with
          | some limit => .number limit.toNat
          | none => .null)]
      { maxDepth := some limits.maxDepth, maxExpansions := some limits.maxExpansions } := by
  obtain ⟨maxDepth, maxExpansions⟩ := limits
  have readsDepth : Reads steps nesting (fun text => readEntry steps "maxDepth" {} (':' :: text))
      (.number maxDepth.toNat) { maxDepth } :=
    Json.reads_field "maxDepth" (fun value : UInt64 => ({ maxDepth := value } : Fields))
      (reads_uint64 "usize" maxDepth)
  have readsExpansions : Reads steps nesting
      (fun text => readEntry steps "maxExpansions" { maxDepth } (':' :: text))
      _ { maxDepth, maxExpansions := some maxExpansions } :=
    Json.reads_field "maxExpansions"
      (fun value : Option UInt64 => ({ maxDepth, maxExpansions := some value } : Fields))
      (reads_bound maxExpansions)
  exact .cons readsDepth (.cons readsExpansions (.nil _))

theorem reads_toJson (limits : Limits) :
    Reads steps nesting (read steps nesting) limits.toJson limits := by
  unfold toJson
  apply Json.reads_object fun _ => limits.readsEntries
  · intro text
    simp only [read, Json.readStruct, Json.skipBlank_openBrace]
  · intro nesting depth text rest isRead
    simp only [read, Json.readStruct, Json.skipBlank_openBrace, readFields]
    rw [isRead]
    exact Json.readAs_bind_ok rfl

end Limits

/-- The text of a value is read back up to the allowed depth, and above it is refused as ill-formed
JSON. -/
structure ReadsBack {α : Type} (ofJson : String → Except ReadError α) (written : Json.Value)
    (value : α) : Prop where
  shallow : written.depth ≤ 127 → ofJson written.compact = .ok value
  deep : 127 < written.depth → ∃ reason, ofJson written.compact = .error reason ∧
    reason.category = .format ∧ reason.message = "recursion limit exceeded"

theorem readsBack_of_reads {α : Type} {read : Nat → Nat → Reader α} {written : Json.Value}
    {value : α}
    (reads : ∀ steps, Reads steps Json.maxNesting (read steps Json.maxNesting) written value) :
    ReadsBack (Json.readDocument read) written value := by
  have document : Json.readDocument read written.compact =
      if written.depth ≤ 127 then .ok value else .error .nestedTooDeep :=
    Json.readDocument_compact reads
  constructor
  · intro shallow
    rw [document, if_pos shallow]
  · intro deep
    rw [document, if_neg (Nat.not_le.2 deep)]
    exact ⟨_, rfl, rfl, rfl⟩

/-- Values are read back from what is written of them exactly up to the allowed depth, and whatever
document a description was read from, it is read back from what is written of it. -/
theorem json_round_trip :
    (∀ tree : Expr, ReadsBack Expr.ofJson tree.toJson tree) ∧
    (∀ description : Puzzle.Description,
      ReadsBack Puzzle.Description.ofJson description.toJson description) ∧
    (∀ limits : Limits, ReadsBack Limits.ofJson limits.toJson limits) ∧
    ∀ document description, Puzzle.Description.ofJson document = .ok description →
      Puzzle.Description.ofJson description.toJson.compact = .ok description := by
  have descriptions (description : Puzzle.Description) :
      ReadsBack Puzzle.Description.ofJson description.toJson description :=
    readsBack_of_reads fun _ => description.reads_toJson
  refine ⟨?trees, descriptions, ?limits, ?again⟩
  case trees =>
    intro tree
    exact readsBack_of_reads fun steps => tree.reads_toJson steps _
  case limits =>
    intro limits
    exact readsBack_of_reads fun _ => limits.reads_toJson
  case again =>
    intro document description isRead
    obtain ⟨steps, text, rest, readText⟩ := Json.exists_of_readDocument isRead
    exact (descriptions description).shallow (Puzzle.Description.depth_toJson_le readText)

/-- A constant within the given number of sums of one operand. -/
def withinSums : Nat → Expr
  | 0 => .num 0
  | n + 1 => .add [withinSums n]

theorem depth_withinSums (n : Nat) : (withinSums n).toJson.depth = 2 * n + 1 := by
  induction n with
  | zero => rfl
  | succ n ih =>
    simp only [withinSums, Expr.toJson, Expr.allToJson, Json.Value.depth,
      Json.Value.depthOfEntries, Json.Value.depthOfElements, ih]
    omega

/-- A description in a list, with two values for one variable. -/
def listed : String := "[\x7b\"var\": \"x\"\x7d, 2, \x7b\"x\": 1, \"x\": 2\x7d]"

/-- One sum more than 63 is too much. -/
theorem json_round_trip_sums :
    Expr.ofJson (withinSums 63).toJson.compact = .ok (withinSums 63) ∧
    (∃ reason, Expr.ofJson (withinSums 64).toJson.compact = .error reason ∧
      reason.category = .format ∧ reason.message = "recursion limit exceeded") ∧
    ∃ description, Puzzle.Description.ofJson listed = .ok description ∧
      Puzzle.Description.ofJson description.toJson.compact = .ok description := by
  have ⟨trees, _, _, again⟩ := json_round_trip
  have shallow : (withinSums 63).toJson.depth ≤ 127 := Nat.le_of_eq (depth_withinSums 63)
  have deep : 127 < (withinSums 64).toJson.depth := by
    have depth : (withinSums 64).toJson.depth = 129 := depth_withinSums 64
    omega
  have known : (Puzzle.Description.ofJson listed).toOption =
      some { tree := .var "x", target := 2, assignment := ⟨[("x", 2)], by decide⟩ } := by
    decide +kernel
  have isRead := Json.eq_ok_of_toOption_eq_some known
  exact ⟨(trees _).shallow shallow, (trees _).deep deep, _, isRead, again listed _ isRead⟩

end SearchSpace
