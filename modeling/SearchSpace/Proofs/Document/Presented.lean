import SearchSpace.Proofs.Document.Puzzle
import SearchSpace.Proofs.Json.Layout

/-!
# Every presentation of a puzzle is read alike

A description can be presented as an object or as a list of its values. The fields of the object
stand in any order and among unknown ones, whose values may be anything well-formed, and the values
of variables may be overwritten by later ones. All these texts are read as the same description, if
the written description is not nested too deep; what is unknown may be nested deeper.
-/

namespace SearchSpace

open Json (Accepts AcceptsEntry AcceptsEntries Form)

variable {steps nesting : Nat} {text rest : List Char}

theorem accepts_uint64 (expected : String) (value : UInt64) :
    Accepts steps (readUInt64 expected) (Json.Value.Layout (.number value.toNat)) value := by
  have small : value.toNat < UInt64.size := value.toNat_lt
  have number : Accepts steps (Json.readNatural expected UInt64.size)
      (Json.Value.Layout (.number value.toNat)) value.toNat := Json.accepts_natural small small
  have accepts := number.map UInt64.ofNat
  rwa [UInt64.ofNat_toNat] at accepts

/-! ## Expressions -/

namespace Expr

variable {tree : Expr} {operands : List Expr} {kind : String} {written : Json.Value}

/-- A node is read however it is laid out if its content is. -/
theorem accepts_node (isKind : kinds.contains kind = true)
    (accepts : ∀ inner, written.depth ≤ inner →
      Accepts steps (readContent steps (operandReader? steps inner) kind) written.Layout tree)
    (shallow : (Json.Value.object [(kind, written)]).depth ≤ nesting) :
    Accepts steps (read steps nesting) (Json.Value.Layout (.object [(kind, written)])) tree := by
  rw [Json.Value.depth, Json.Value.depthOfEntries, Json.Value.depthOfEntries, Nat.max_zero]
    at shallow
  obtain ⟨inner, rfl⟩ := Nat.exists_eq_add_one_of_ne_zero (Nat.ne_zero_of_lt shallow)
  rw [read_succ]
  exact Json.accepts_variant isKind (accepts inner (Nat.le_of_succ_le_succ shallow))

theorem accepts_operands
    (accepts : ∀ inner, Json.Value.depthOfElements (allToJson operands) ≤ inner →
      List.Forall₂ (Accepts steps (read steps inner))
        (Json.Value.layoutsOfElements (allToJson operands)) operands)
    (nesting : Nat) (shallow : (Json.Value.list (allToJson operands)).depth ≤ nesting) :
    Accepts steps (Json.readList steps (operandReader? steps nesting))
      (Json.Value.Layout (.list (allToJson operands))) operands := by
  rw [Json.Value.depth] at shallow
  obtain ⟨inner, rfl⟩ := Nat.exists_eq_add_one_of_ne_zero (Nat.ne_zero_of_lt shallow)
  exact Json.accepts_list (accepts inner (Nat.le_of_succ_le_succ shallow))

mutual

theorem accepts_layout (steps : Nat) : (tree : Expr) → ∀ nesting, tree.toJson.depth ≤ nesting →
    Accepts steps (read steps nesting) tree.toJson.Layout tree
  | .num value, _ =>
    accepts_node (by decide) fun _ _ => (accepts_uint64 "u64" value).map Expr.num
  | .var name, _ =>
    accepts_node (by decide) fun _ _ => (Json.accepts_text "a string" name).map Expr.var
  | .add operands, _ => by
    have accepts := accepts_operands (accepts_layouts steps operands)
    exact accepts_node (by decide) fun inner shallow => (accepts inner shallow).map Expr.add
  | .mul operands, _ => by
    have accepts := accepts_operands (accepts_layouts steps operands)
    exact accepts_node (by decide) fun inner shallow => (accepts inner shallow).map Expr.mul

theorem accepts_layouts (steps : Nat) : (operands : List Expr) → ∀ nesting,
    Json.Value.depthOfElements (allToJson operands) ≤ nesting →
    List.Forall₂ (Accepts steps (read steps nesting))
      (Json.Value.layoutsOfElements (allToJson operands)) operands
  | [], _, _ => .nil
  | operand :: rest, nesting, shallow =>
    .cons (accepts_layout steps operand nesting (Nat.le_trans (Nat.le_max_left ..) shallow))
      (accepts_layouts steps rest nesting (Nat.le_trans (Nat.le_max_right ..) shallow))

end

end Expr

/-! ## Assignments -/

namespace Assignment

/-- The objects that present an assignment: of several values of one name the last counts. -/
def Layout (assignment : Assignment) : Form := fun text rest =>
  ∃ entries : List (String × UInt8),
    (∀ name, assignment.get? name = entries.reverse.lookup name) ∧
    Json.Value.Layout (.object (entries.map fun entry => (entry.1, .number entry.2.toNat)))
      text rest

theorem solid_layout (assignment : Assignment) : Json.Solid assignment.Layout := by
  apply Json.solid_of_cases
  rintro text rest ⟨entries, -, braced⟩
  exact ⟨_, braced, Json.Value.solid_layout _⟩

theorem acceptsEntry_readEntry (name : String) (value : UInt8) (known : Assignment) :
    AcceptsEntry steps (readEntry name known) (Json.Value.Layout (.number value.toNat))
      (known.insert name value) := by
  have below : value.toNat < UInt8.size := value.toNat_lt
  have small : value.toNat < UInt64.size := Nat.lt_trans below (by decide)
  have number : Accepts steps (Json.readNatural "u8" UInt8.size)
      (Json.Value.Layout (.number value.toNat)) value.toNat := Json.accepts_natural below small
  have accepts := (number.map fun value => known.insert name (UInt8.ofNat value)).behindColon
  rw [UInt8.ofNat_toNat] at accepts
  exact accepts

/-- The names are in order, so each comes once and its last value is its only one. -/
theorem get?_eq_lookup_reverse (assignment : Assignment) (name : String) :
    assignment.get? name = assignment.entries.reverse.lookup name := by
  have distinct : (assignment.entries.reverse.map (·.1)).Nodup := by
    rw [List.map_reverse, List.nodup_reverse]
    exact assignment.nodup_names
  ext value
  rw [get?_eq_some_iff, lookup_eq_some_iff distinct, List.mem_reverse]

/-- Each entry is read over those before it. -/
theorem acceptsEntries (known : Assignment) (entries : List (String × UInt8)) :
    AcceptsEntries steps readEntry known
      (Json.Value.layoutsOfEntries (entries.map fun entry => (entry.1, .number entry.2.toNat)))
      (known.insertAll entries) := by
  induction entries generalizing known with
  | nil => exact .nil known
  | cons entry rest ih => exact .cons (acceptsEntry_readEntry entry.1 entry.2 known) (ih _)

theorem accepts_layout (assignment : Assignment) :
    Accepts steps (read steps (nesting + 1)) assignment.Layout assignment where
  toSolid := assignment.solid_layout
  read_eq := by
    rintro start text rest ⟨entries, values, braced⟩ eq ends short
    have same : ofList entries = assignment := by
      apply ext_get?
      intro name
      rw [values, get?_ofList]
    obtain ⟨inner, rfl⟩ := Json.Enclosed.exists_eq_cons braced
    simp only [read, eq]
    rw [← same]
    exact Json.readEntries_braced (acceptsEntries ∅ entries) braced short

end Assignment

/-! ## Descriptions -/

namespace Puzzle.Description

/-- The entries of an object that presents a description. -/
inductive Field where
  | tree
  | target
  | assignment
  /-- A field of any other name. -/
  | unknown (name : String)
deriving DecidableEq

namespace Field

/-- The name of a field. -/
def name : Field → String
  | .tree => "tree"
  | .target => "target"
  | .assignment => "variables"
  | .unknown name => name

/-- The form of the value of a field. -/
def Value (description : Description) : Field → Form
  | .tree => description.tree.toJson.Layout
  | .target => Json.Value.Layout (.number description.target.toNat)
  | .assignment => description.assignment.Layout
  | .unknown _ => Json.WellFormed

/-- The form of a field. -/
def Entry (description : Description) (field : Field) : Form :=
  Json.Entry (Json.Spells field.name.toList) (field.Value description)

end Field

/-- Fields that tell a description: the expression and the target once each, the variables once or,
if there are none, not at all, and any fields besides. -/
structure Tell (description : Description) (fields : List Field) : Prop where
  tree : fields.count .tree = 1
  target : fields.count .target = 1
  assignment : fields.count .assignment = 1 ∨
    fields.count .assignment = 0 ∧ description.assignment = ∅
  unknown : ∀ name, .unknown name ∈ fields → name ∉ ["tree", "target", "variables"]

/-- The objects and lists that present a description. -/
inductive Layout (description : Description) : Form
  | object {fields : List Field} {text rest : List Char} : Tell description fields →
      Json.Braced (fields.map (Field.Entry description)) text rest → Layout description text rest
  | pair {text rest : List Char} : description.assignment = ∅ →
      Json.Listed ([.tree, .target].map (Field.Value description)) text rest →
      Layout description text rest
  | triple {text rest : List Char} :
      Json.Listed ([.tree, .target, .assignment].map (Field.Value description)) text rest →
      Layout description text rest

/-- The document presents the description, with blanks at either end. -/
def Presented (description : Description) (document : String) : Prop :=
  ∃ text rest, Json.Blanks document.toList text ∧ description.Layout text rest ∧ Json.Blanks rest []

/-! ### Objects -/

variable {description : Description} {known : Fields} {field : Field} {fields : List Field}

/-- What is known behind a field. -/
def Fields.enter (description : Description) (known : Fields) : Field → Fields
  | .tree => { known with tree := some description.tree }
  | .target => { known with target := some description.target }
  | .assignment => { known with assignment := some description.assignment }
  | .unknown _ => known

/-- What is known behind several fields. -/
def Fields.learn (description : Description) (known : Fields) (fields : List Field) : Fields where
  tree := if .tree ∈ fields then some description.tree else known.tree
  target := if .target ∈ fields then some description.target else known.target
  assignment := if .assignment ∈ fields then some description.assignment else known.assignment

theorem Fields.learn_cons : known.learn description (field :: fields) =
    (known.enter description field).learn description fields := by
  cases field <;> simp [learn, enter]

/-- The fields that are still to come can be entered: none of those that may occur only once comes
twice, and none that is known comes again. -/
structure Fields.Awaits (known : Fields) (fields : List Field) : Prop where
  tree : fields.count .tree + known.tree.toList.length ≤ 1
  target : fields.count .target + known.target.toList.length ≤ 1
  assignment : fields.count .assignment + known.assignment.toList.length ≤ 1
  unknown : ∀ name, .unknown name ∈ fields → name ∉ ["tree", "target", "variables"]

theorem Fields.Awaits.enter (awaits : known.Awaits (field :: fields)) :
    (known.enter description field).Awaits fields := by
  obtain ⟨tree, target, assignment, unknown⟩ := awaits
  rw [List.count_cons] at tree target assignment
  refine ⟨?_, ?_, ?_, fun name member => unknown name (List.mem_cons_of_mem _ member)⟩
  · cases field <;> simp [Fields.enter] at tree ⊢ <;> omega
  · cases field <;> simp [Fields.enter] at target ⊢ <;> omega
  · cases field <;> simp [Fields.enter] at assignment ⊢ <;> omega

theorem Fields.eq_none_of_awaits {α : Type} {once : Option α}
    (awaits : (field :: fields).count field + once.toList.length ≤ 1) : once = none := by
  cases once with
  | none => rfl
  | some _ => simp at awaits

/-- A field that is awaited is read however it is laid out. -/
theorem acceptsEntry_readEntry (shallow : description.tree.toJson.depth ≤ nesting)
    (awaits : known.Awaits (field :: fields)) :
    AcceptsEntry steps (readEntry steps nesting field.name known) (field.Value description)
      (known.enter description field) := by
  obtain ⟨inner, rfl⟩ := Nat.exists_eq_add_one_of_ne_zero
    (Nat.ne_zero_of_lt (Nat.lt_of_lt_of_le description.tree.depth_toJson_pos shallow))
  obtain ⟨tree, target, assignment⟩ := known
  cases field with
  | tree =>
    obtain rfl := Fields.eq_none_of_awaits awaits.tree
    have accepts := description.tree.accepts_layout steps _ shallow
    exact (Json.acceptsEntry_field "tree" accepts).map
      fun value => ({ tree := some value, target, assignment } : Fields)
  | target =>
    obtain rfl := Fields.eq_none_of_awaits awaits.target
    exact (Json.acceptsEntry_field "target" (accepts_uint64 "u64" description.target)).map
      fun value => ({ tree, target := some value, assignment } : Fields)
  | assignment =>
    obtain rfl := Fields.eq_none_of_awaits awaits.assignment
    exact (Json.acceptsEntry_field "variables" description.assignment.accepts_layout).map
      fun value => ({ tree, target, assignment := some value } : Fields)
  | unknown name =>
    have unknown := awaits.unknown name List.mem_cons_self
    simp only [List.mem_cons, List.not_mem_nil, or_false, not_or] at unknown
    have skips : readEntry steps (inner + 1) name ⟨tree, target, assignment⟩ =
        Json.skipField steps ⟨tree, target, assignment⟩ := by
      funext text
      unfold readEntry
      split <;> simp_all
    rw [Field.name, skips]
    exact Json.acceptsEntry_skipField _

/-- Awaited fields are read in any order. -/
theorem acceptsEntries (shallow : description.tree.toJson.depth ≤ nesting)
    (awaits : known.Awaits fields) :
    AcceptsEntries steps (readEntry steps nesting) known (fields.map (Field.Entry description))
      (known.learn description fields) := by
  -- What each field leaves known still awaits the others, in whatever order they come.
  induction fields generalizing known with
  | nil => exact .nil known
  | cons field fields ih =>
    rw [Fields.learn_cons]
    exact .cons (acceptsEntry_readEntry shallow awaits) (ih awaits.enter)

/-- Behind all fields of an object the description is known. -/
theorem readFields_of_tell (shallow : description.tree.toJson.depth ≤ nesting)
    (tell : Tell description fields)
    (braced : Json.Braced (fields.map (Field.Entry description)) ('{' :: text) rest)
    (short : ('{' :: text).length < steps) :
    readFields steps nesting text = .ok (description, rest) := by
  have assignment_le : fields.count .assignment ≤ 1 := by
    rcases tell.assignment with once | ⟨absent, -⟩ <;> omega
  have awaits : Fields.Awaits {} fields :=
    ⟨Nat.le_of_eq tell.tree, Nat.le_of_eq tell.target, assignment_le, tell.unknown⟩
  have tree : Field.tree ∈ fields := List.count_pos_iff.1 (by rw [tell.tree]; decide)
  have target : Field.target ∈ fields := List.count_pos_iff.1 (by rw [tell.target]; decide)
  have assignment : (Fields.learn description {} fields).assignment.getD ∅ =
      description.assignment := by
    rcases tell.assignment with once | ⟨absent, none⟩
    · have present : Field.assignment ∈ fields := List.count_pos_iff.1 (by rw [once]; decide)
      simp [Fields.learn, present]
    · simp [Fields.learn, List.count_eq_zero.1 absent, none]
  have isRead := Json.readEntries_braced (acceptsEntries shallow awaits) braced short
  simp only [readFields, isRead, bind, Except.bind]
  rw [assignment]
  simp only [Fields.learn, tree, target, if_true, Json.requireField]
  rfl

/-! ### Lists -/

theorem Field.solid_value (description : Description) (field : Field) :
    Json.Solid (field.Value description) := by
  cases field with
  | tree => exact Json.Value.solid_layout _
  | target => exact Json.Value.solid_layout _
  | assignment => exact description.assignment.solid_layout
  | unknown => exact Json.skips_wellFormed.toSolid

theorem Field.solid_values (description : Description) (fields : List Field) :
    ∀ form ∈ fields.map (Field.Value description), Json.Solid form :=
  List.forall_mem_map.2 fun field _ => field.solid_value description

/-- The values in a list are read in their order; the last one may be missing if it is empty. -/
theorem readElements_of_row (shallow : description.tree.toJson.depth ≤ nesting)
    (last : fields = [] ∧ description.assignment = ∅ ∨ fields = [.assignment])
    (row : Json.Row ']' ((.tree :: .target :: fields).map (Field.Value description)) text rest)
    (short : text.length < steps) :
    ∃ behind, readElements steps nesting text = .ok (description, behind) ∧
      Json.endList behind = .ok rest := by
  obtain ⟨inner, rfl⟩ := Nat.exists_eq_add_one_of_ne_zero
    (Nat.ne_zero_of_lt (Nat.lt_of_lt_of_le description.tree.depth_toJson_pos shallow))
  have toTree := row.nextElement?_first (Field.solid_values description _)
  obtain ⟨behindTree, tree, ⟨⟨⟩, -⟩ | ⟨others, comma, less, row⟩⟩ :=
    (description.tree.accepts_layout steps _ shallow).first row (by decide) short
  have toTarget := row.nextElement?_later (Field.solid_values description (.target :: fields)) comma
  obtain ⟨behindTarget, target, rowEnds⟩ :=
    (accepts_uint64 "u64" description.target).first row (by decide) (Nat.lt_trans less short)
  have readTree (expected : String) :
      Json.readElement expected 0 (Expr.read steps (inner + 1)) text =
        .ok (description.tree, behindTree) :=
    Json.readElement_of_next toTree tree
  have readTarget (expected : String) :
      Json.readElement expected 1 (readUInt64 "u64") behindTree =
        .ok (description.target, behindTarget) :=
    Json.readElement_of_next toTarget target
  obtain ⟨rfl, absent⟩ | rfl := last
  · obtain ⟨-, closed⟩ | ⟨_, _, _, ⟨⟩⟩ := rowEnds
    refine ⟨behindTarget, ?_, Json.endList_of_end closed⟩
    simp only [readElements, readTree, readTarget, Json.nextElement?_of_end false closed, bind,
      Except.bind]
    rw [← absent]
    rfl
  · obtain ⟨⟨⟩, -⟩ | ⟨others', comma', less', row⟩ := rowEnds
    have toAssignment :=
      row.nextElement?_later (Field.solid_values description [.assignment]) comma'
    have accepts : Accepts steps (Assignment.read steps (inner + 1)) _ description.assignment :=
      description.assignment.accepts_layout
    obtain ⟨behind, assignment, ⟨-, closed⟩ | ⟨_, _, _, ⟨⟩⟩⟩ :=
      accepts.first row (by decide) (by omega)
    refine ⟨behind, ?_, Json.endList_of_end closed⟩
    simp only [readElements, readTree, readTarget, toAssignment, assignment, bind, Except.bind]
    rfl

/-! ### Documents -/

theorem accepts_layout (steps : Nat) (shallow : description.toJson.depth ≤ nesting) :
    Accepts steps (read steps nesting) description.Layout description where
  toSolid := by
    apply Json.solid_of_cases
    rintro text rest (⟨-, braced⟩ | ⟨-, listed⟩ | listed)
    · refine ⟨_, braced, Json.solid_braced (List.forall_mem_map.2 fun field _ => ?_)⟩
      have shrinks := (field.solid_value description).shrinks
      exact (Json.solid_entry (Json.shrinks_spells _) shrinks).shrinks
    · exact ⟨_, listed, Json.solid_listed fun form member =>
        (Field.solid_values description _ form member).shrinks⟩
    · exact ⟨_, listed, Json.solid_listed fun form member =>
        (Field.solid_values description _ form member).shrinks⟩
  read_eq := by
    rw [depth_toJson] at shallow
    obtain ⟨nesting, rfl⟩ := Nat.exists_eq_add_one_of_ne_zero (Nat.ne_zero_of_lt shallow)
    have shallow := Nat.le_of_succ_le_succ shallow
    rintro start text rest (⟨tell, braced⟩ | ⟨absent, listed⟩ | listed) eq ends short
    · obtain ⟨inner, rfl⟩ := braced.exists_eq_cons
      simp only [read, Json.readStruct, eq]
      exact readFields_of_tell shallow tell braced short
    · cases listed with
      | row row =>
        obtain ⟨behind, isRead, ended⟩ := readElements_of_row shallow (.inl ⟨rfl, absent⟩) row
          (Nat.lt_of_succ_lt short)
        simp only [read, Json.readStruct, eq, isRead, ended, bind, Except.bind]
        rfl
    · cases listed with
      | row row =>
        obtain ⟨behind, isRead, ended⟩ := readElements_of_row shallow (.inr rfl) row
          (Nat.lt_of_succ_lt short)
        simp only [read, Json.readStruct, eq, isRead, ended, bind, Except.bind]
        rfl

/-- Whatever document presents a description is read as this description, so it tells the same
puzzle, or is refused for the same reason. -/
theorem presented_read_alike {document : String} (shallow : description.toJson.depth ≤ 127)
    (presented : description.Presented document) :
    ofJson document = .ok description ∧
      Puzzle.ofJson document = description.puzzle.mapError .invalid := by
  obtain ⟨text, rest, before, inside, after⟩ := presented
  have isRead : ofJson document = .ok description :=
    Json.readDocument_of_accepts (fun steps => accepts_layout steps shallow) before inside after
  refine ⟨isRead, ?_⟩
  rw [Puzzle.ofJson, isRead]

/-- The text that is written of a description presents it. -/
theorem presented_compact (description : Description) :
    description.Presented description.toJson.compact := by
  have tell : Tell description [.tree, .target, .assignment] := by
    refine ⟨rfl, rfl, .inl rfl, fun name member => ?_⟩
    simp at member
  have assignment (rest : List Char) :
      description.assignment.Layout (description.assignment.toJson.write rest) rest :=
    ⟨description.assignment.entries, description.assignment.get?_eq_lookup_reverse,
      Json.Value.layout_write _ rest⟩
  rw [Presented, Json.Value.compact, String.toList_ofList]
  have key (name : String) (rest : List Char) := Json.spells_foldr_writeChar name.toList rest
  exact ⟨_, [], .none, .object tell (.row (.more .none
    (.mk (key _ _) .none .none (Json.Value.layout_write _ _)) .none (.more .none
    (.mk (key _ _) .none .none (Json.Value.layout_write (.number _) _)) .none (.last .none
    (.mk (key _ _) .none .none (assignment _)) .none)))), .none⟩

/-- The description of a puzzle of one variable, which has a value. -/
def single : Description := { tree := .var "x", target := 7, assignment := .ofList [("x", 7)] }

/-- An object that presents it, with the fields in another order, half of a pair in a field that
nobody knows, and an older value of the variable. -/
def scattered : String :=
  " \x7b\"deep\":[-1.5e+7,\x7b\"\\ud800\":[]\x7d],\"variables\":\x7b\"x\":3,\"\\u0078\":7\x7d," ++
    "\"target\" :7,\n\"tree\":\x7b\"var\":\"x\"\x7d\x7d"

/-- A number and an object with half of a pair as its key. -/
theorem wellFormed_half (rest : List Char) : Json.WellFormed ('[' :: '-' :: '1' :: '.' :: '5' ::
    'e' :: '+' :: '7' :: ',' :: '{' :: '"' :: '\\' :: 'u' :: 'd' :: '8' :: '0' :: '0' :: '"' ::
    ':' :: '[' :: ']' :: '}' :: ']' :: rest) rest := by
  have numeral (rest : List Char) :
      Json.Numeral ('-' :: '1' :: '.' :: '5' :: 'e' :: '+' :: '7' :: rest) rest :=
    .mk (.some (by decide)) (.digits (by decide) (.mk rfl .none)) (.some (.mk rfl .none))
      (.some (by decide) (.some (by decide)) (.mk rfl .none))
  have half (rest : List Char) :
      Json.Quoted ('\\' :: 'u' :: 'd' :: '8' :: '0' :: '0' :: '"' :: rest) rest :=
    .unit (@Json.Unit16.digits 13 8 0 0 _ _ _ _ _ (.inl rfl) (.inl rfl) (.inl rfl) (.inl rfl))
      .done
  have object (rest : List Char) : Json.WellFormedTo 2 ('{' :: '"' :: '\\' :: 'u' :: 'd' ::
      '8' :: '0' :: '0' :: '"' :: ':' :: '[' :: ']' :: '}' :: rest) rest :=
    .inr (.inr ⟨1, .row (.last .none
      (.mk (half _) .none .none (.inr (.inl ⟨0, .none .none⟩))) .none)⟩)
  exact ⟨3, .inr (.inl ⟨2, .row (.more .none (.inl (.numeral (numeral _))) .none
    (.last .none (object _) .none))⟩)⟩

theorem presented_scattered : single.Presented scattered := by
  have plain : ∀ name ∈ ["deep", "variables", "target", "tree", "var", "x"],
      ∀ c ∈ name.toList, Json.Plain c := by
    simp [Json.Plain]
  have spelled (name : String) (member : name ∈ ["deep", "variables", "target", "tree", "var", "x"])
      (rest : List Char) : Json.Spells name.toList (name.toList ++ '"' :: rest) rest :=
    Json.spells_self (plain name member) rest
  have escaped (rest : List Char) : Json.Spells "x".toList
      ('\\' :: 'u' :: '0' :: '0' :: '7' :: '8' :: '"' :: rest) rest :=
    .unit (@Json.Unit16.digits 0 0 7 8 _ _ _ _ _ (.inl rfl) (.inl rfl) (.inl rfl) (.inl rfl)) .done
  have assignment (rest : List Char) : single.assignment.Layout ('{' :: '"' :: 'x' :: '"' :: ':' ::
      '3' :: ',' :: '"' :: '\\' :: 'u' :: '0' :: '0' :: '7' :: '8' :: '"' :: ':' :: '7' :: '}' ::
      rest) rest := by
    refine ⟨[("x", 3), ("x", 7)], fun name => ?_, .row (.more .none
      (.mk (spelled "x" (by simp) _) .none .none rfl) .none
      (.last .none (.mk (escaped _) .none .none rfl) .none))⟩
    simp only [single, Assignment.get?_ofList, List.reverse_cons, List.reverse_nil, List.nil_append,
      List.cons_append, Assignment.lookup_cons_eq_ite, List.lookup_nil]
    split <;> rfl
  have tree (rest : List Char) : Json.Value.Layout (Expr.toJson (.var "x")) ('{' :: '"' :: 'v' ::
      'a' :: 'r' :: '"' :: ':' :: '"' :: 'x' :: '"' :: '}' :: rest) rest :=
    .row (.last .none (.mk (spelled "var" (by simp) _) .none .none
      ⟨_, rfl, spelled "x" (by simp) _⟩) .none)
  have blank (rest : List Char) : Json.Blanks (' ' :: rest) rest := .more (by decide) .none
  have newLine (rest : List Char) : Json.Blanks ('\n' :: rest) rest := .more (by decide) .none
  have tell : Tell single [.unknown "deep", .assignment, .target, .tree] := by
    refine ⟨by decide, by decide, .inl (by decide), fun name member => ?_⟩
    simp at member
    rw [member]
    decide
  have text : scattered.toList =
      [' ', '{', '"', 'd', 'e', 'e', 'p', '"', ':', '[', '-', '1', '.', '5', 'e', '+', '7', ',',
      '{', '"', '\\', 'u', 'd', '8', '0', '0', '"', ':', '[', ']', '}', ']', ',', '"', 'v', 'a',
      'r', 'i', 'a', 'b', 'l', 'e', 's', '"', ':', '{', '"', 'x', '"', ':', '3', ',', '"', '\\',
      'u', '0', '0', '7', '8', '"', ':', '7', '}', ',', '"', 't', 'a', 'r', 'g', 'e', 't', '"', ' ',
      ':', '7', ',', '\n', '"', 't', 'r', 'e', 'e', '"', ':', '{', '"', 'v', 'a', 'r', '"', ':',
      '"', 'x', '"', '}', '}'] := by
    decide +kernel
  rw [Presented, text]
  refine ⟨_, [], blank _, .object tell (.row (.more .none
    (.mk (spelled "deep" (by simp) _) .none .none (wellFormed_half _)) .none (.more .none
    (.mk (spelled "variables" (by simp) _) .none .none (assignment _)) .none (.more .none
    (.mk (spelled "target" (by simp) _) (blank _) .none rfl) .none (.last (newLine _)
    (.mk (spelled "tree" (by simp) _) .none .none (tree _)) .none))))), .none⟩

theorem presented_read_alike_scattered : single.Presented scattered ∧
    ofJson scattered = .ok single ∧
    Puzzle.ofJson scattered = single.puzzle.mapError .invalid :=
  ⟨presented_scattered, presented_read_alike (by decide) presented_scattered⟩

end Puzzle.Description

end SearchSpace
