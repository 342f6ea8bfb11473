import SearchSpace.Proofs.Json.Written

/-!
# Values are read as they were written

A reader that may enter a certain number of lists and objects takes a written value off the front of
a text if the value is nested no deeper than that, and otherwise says that it is nested too deep.
Readers of lists, variants and objects do so if the readers of their parts do, and a whole document
is read if its value is.
-/

namespace SearchSpace.Json

/-- The answer of a reader to a value of the given depth, of which `nesting` is allowed. -/
def readAs {α : Type} (nesting depth : Nat) (value : α) (rest : List Char) :
    Except ReadError (α × List Char) :=
  if depth ≤ nesting then .ok (value, rest) else .error .nestedTooDeep

/-- The reader takes the written value off the front of any text shorter than the given number of
steps, unless it is nested too deep. -/
def Reads {α : Type} (steps nesting : Nat) (read : Reader α) (written : Value) (value : α) : Prop :=
  ∀ rest, EndsNumber rest → (written.write rest).length < steps →
    read (written.write rest) = readAs nesting written.depth value rest

variable {α β : Type} {steps nesting depth depth' n : Nat} {read element : Reader α}
  {written : Value} {value : α} {text next tail rest : List Char}

@[simp] theorem readAs_zero : readAs nesting 0 value rest = .ok (value, rest) :=
  if_pos (Nat.zero_le nesting)

theorem readAs_of_lt (deep : nesting < depth) :
    readAs nesting depth value rest = .error .nestedTooDeep := if_neg (Nat.not_le.2 deep)

theorem readAs_succ :
    readAs (nesting + 1) (depth + 1) value rest = readAs nesting depth value rest := by
  simp [readAs]

/-- What is read in two pieces is as deep as the deeper one. -/
theorem readAs_bind {value' : β} {rest' : List Char}
    {others : α × List Char → Except ReadError (β × List Char)}
    (read : others (value, rest) = readAs nesting depth' value' rest') :
    (readAs nesting depth value rest >>= others) =
      readAs nesting (max depth depth') value' rest' := by
  by_cases deep : nesting < depth
  · rw [readAs_of_lt deep, readAs_of_lt (Nat.lt_of_lt_of_le deep (Nat.le_max_left ..))]
    rfl
  · have shallow : depth ≤ nesting := Nat.not_lt.1 deep
    have first : readAs nesting depth value rest = .ok (value, rest) := if_pos shallow
    rw [first]
    show others (value, rest) = _
    rw [read]
    simp only [readAs, Nat.max_le, shallow, true_and]

/-- What follows without lists and objects does not make it deeper. -/
theorem readAs_bind_ok {value' : β} {rest' : List Char}
    {others : α × List Char → Except ReadError (β × List Char)}
    (read : others (value, rest) = .ok (value', rest')) :
    (readAs nesting depth value rest >>= others) = readAs nesting depth value' rest' := by
  have shallow : others (value, rest) = readAs nesting 0 value' rest' := by
    rw [read, readAs_zero]
  rw [readAs_bind shallow, Nat.max_eq_left (Nat.zero_le depth)]

/-- Data made of a value is read where the value is. -/
theorem Reads.map (f : α → β) (reads : Reads steps nesting read written value) :
    Reads steps nesting (fun text => do
      let (value, rest) ← read text
      return (f value, rest)) written (f value) := by
  intro rest ends short
  simp only [reads rest ends short]
  exact readAs_bind_ok rfl

/-! ## Numbers and strings -/

theorem reads_natural {expected : String} {bound value : Nat} (below : value < bound)
    (small : value < UInt64.size) :
    Reads steps nesting (readNatural expected bound) (.number value) value := by
  intro rest ends _
  rw [Value.write, Value.depth, readAs_zero]
  exact readNatural_writeNumber below small ends

theorem reads_text (expected value : String) :
    Reads steps nesting (readText expected) (.text value) value := by
  intro rest _ _
  rw [Value.write, Value.depth, readAs_zero, Value.writeString]
  simp only [readText, skipBlank_quote]
  exact readString_writeString value rest

theorem reads_optional_null (read : Reader α) :
    Reads steps nesting (readOptional read) .null none := by
  intro rest _ _
  have blank (text : List Char) : skipBlank ('n' :: text) = 'n' :: text := skipBlank_cons rfl
  rw [Value.write, Value.writeNull, Value.depth, readAs_zero]
  simp only [readOptional, blank]
  rfl

/-- A number is not mistaken for the value that stands for none. -/
theorem reads_optional_number {number : Nat}
    (reads : Reads steps nesting read (.number number) value) :
    Reads steps nesting (readOptional read) (.number number) (some value) := by
  intro rest ends short
  have first := reads rest ends short
  obtain ⟨digit, text, eq, isDigit⟩ := exists_writeNumber_eq_cons number rest
  rw [Value.write, eq] at first ⊢
  have notNull : digit ≠ 'n' := by
    rintro rfl
    cases isDigit
  unfold readOptional
  rw [skipBlank_cons (isBlank_of_isDigit isDigit)]
  split
  case h_1 same => exact absurd (List.cons.inj same).1 notNull
  case h_2 =>
    rw [first]
    exact readAs_bind_ok rfl

/-! ## Lists -/

theorem nextElement?_of_first (eq : skipBlank start = c :: text) (noEnd : c ≠ ']') :
    nextElement? true start = .ok (some (c :: text)) := by
  unfold nextElement?
  rw [eq]
  split
  case h_1 => contradiction
  case h_2 same => exact absurd (List.cons.inj same).1 noEnd
  case h_3 same =>
    cases same
    rfl

theorem nextElement?_of_comma (comma : skipBlank start = ',' :: text)
    (eq : skipBlank text = c :: behind) (noEnd : c ≠ ']') :
    nextElement? false start = .ok (some (c :: behind)) := by
  unfold nextElement?
  rw [comma]
  simp only [Char.reduceEq, imp_self, Bool.false_eq_true, if_true, if_false, eq]
  split
  case h_1 => contradiction
  case h_2 same => exact absurd (List.cons.inj same).1 noEnd
  case h_3 => rfl

theorem nextElement?_first (written : Value) (rest : List Char) :
    nextElement? true (written.write rest) = .ok (some (written.write rest)) := by
  obtain ⟨c, text, eq, notBlank, noEnd⟩ := Value.exists_write_eq_cons written rest
  rw [eq]
  exact nextElement?_of_first (skipBlank_cons notBlank) noEnd

theorem nextElement?_later (written : Value) (rest : List Char) :
    nextElement? false (',' :: written.write rest) = .ok (some (written.write rest)) := by
  obtain ⟨c, text, eq, notBlank, noEnd⟩ := Value.exists_write_eq_cons written rest
  rw [eq]
  exact nextElement?_of_comma skipBlank_comma (skipBlank_cons notBlank) noEnd

theorem nextElement?_of_end (isFirst : Bool) (closed : skipBlank start = ']' :: rest) :
    nextElement? isFirst start = .ok none := by
  simp only [nextElement?, closed]

theorem endList_of_end (closed : skipBlank start = ']' :: rest) : endList start = .ok rest := by
  simp only [endList, closed]

theorem readElements_of_end (element : Reader α) (isFirst : Bool)
    (closed : skipBlank start = ']' :: rest) :
    readElements element (n + 1) isFirst start = .ok ([], rest) := by
  rw [readElements, nextElement?_of_end isFirst closed]
  simp only [endList_of_end closed]
  rfl

/-- One element is read, and then the others. -/
theorem readElements_of_next {isFirst : Bool} {values : List α}
    (more : nextElement? isFirst text = .ok (some next))
    (first : element next = readAs nesting depth value tail)
    (others : readElements element n false tail = readAs nesting depth' values rest) :
    readElements element (n + 1) isFirst text =
      readAs nesting (max depth depth') (value :: values) rest := by
  have step : readElements element (n + 1) isFirst text =
      element next >>= fun read => readElements element n false read.2 >>= fun later =>
        pure (read.1 :: later.1, later.2) := by
    rw [readElements, more]
    rfl
  rw [step, first]
  apply readAs_bind
  rw [others]
  exact readAs_bind_ok rfl

/-- Elements are read one after another until one of them is nested too deep. -/
theorem readElements_write {toJson : α → Value} {values : List α}
    (reads : ∀ value ∈ values, Reads steps nesting element (toJson value) value)
    (short : (Value.writeElements (values.map toJson) rest).length < steps)
    (enough : values.length < n) :
    readElements element n false (Value.writeElements (values.map toJson) rest) =
      readAs nesting (Value.depthOfElements (values.map toJson)) values rest := by
  induction values generalizing n with
  | nil =>
    obtain ⟨n, rfl⟩ := Nat.exists_eq_add_one_of_ne_zero (Nat.ne_of_gt enough)
    rw [List.map_nil, Value.depthOfElements, readAs_zero]
    exact readElements_of_end element false skipBlank_closeBracket
  | cons value values ih =>
    obtain ⟨n, rfl⟩ := Nat.exists_eq_add_one_of_ne_zero (Nat.ne_zero_of_lt enough)
    obtain ⟨first, others⟩ := List.forall_mem_cons.1 reads
    have longer := Value.length_write (toJson value) (Value.writeElements (values.map toJson) rest)
    rw [List.map_cons, Value.writeElements] at short ⊢
    rw [List.length_cons] at short enough
    rw [Value.depthOfElements]
    refine readElements_of_next (nextElement?_later _ _) (first _ ?_ ?_) (ih others ?_ ?_)
    · exact Value.endsNumber_writeElements _ _
    all_goals omega

theorem reads_list {toJson : α → Value} {values : List α}
    (reads : ∀ value ∈ values, Reads steps nesting element (toJson value) value) :
    Reads steps (nesting + 1) (readList steps (some element)) (.list (values.map toJson))
      values := by
  intro rest ends short
  obtain ⟨n, rfl⟩ := Nat.exists_eq_add_one_of_ne_zero (Nat.ne_zero_of_lt short)
  rw [Value.depth, readAs_succ]
  cases values with
  | nil =>
    rw [List.map_nil, Value.write, Value.depthOfElements, readAs_zero]
    simp only [readList, skipBlank_openBracket]
    exact readElements_of_end element true skipBlank_closeBracket
  | cons value values =>
    obtain ⟨first, others⟩ := List.forall_mem_cons.1 reads
    have inner := Value.length_write (toJson value) (Value.writeElements (values.map toJson) rest)
    have outer := Value.length_writeElements (values.map toJson) rest
    rw [List.map_cons, Value.write] at short ⊢
    rw [Value.depthOfElements]
    rw [List.length_cons] at short
    rw [List.length_map] at outer
    simp only [readList, skipBlank_openBracket]
    refine readElements_of_next (nextElement?_first _ _) (first _ ?_ ?_)
      (readElements_write others ?_ ?_)
    · exact Value.endsNumber_writeElements _ _
    all_goals omega

/-- No list is read if none may be entered. -/
theorem reads_list_none (elements : List Value) (values : List α) :
    Reads steps 0 (readList steps none) (.list elements) values := by
  intro rest ends short
  rw [Value.depth, readAs_of_lt (Nat.succ_pos _)]
  cases elements <;> simp only [Value.write, readList, skipBlank_openBracket]

/-! ## Objects -/

theorem nextKey?_of_first (eq : skipBlank start = '"' :: text) :
    nextKey? true start = .ok (some text) := by
  simp [nextKey?, eq]

theorem nextKey?_of_comma (comma : skipBlank start = ',' :: text)
    (eq : skipBlank text = '"' :: behind) : nextKey? false start = .ok (some behind) := by
  simp [nextKey?, comma, eq]

theorem expectColon_cons (text : List Char) : expectColon (':' :: text) = .ok text := by
  simp only [expectColon, skipBlank_colon]

theorem readEntries_of_end (entry : String → α → Reader α) (isFirst : Bool) (known : α)
    (closed : skipBlank start = '}' :: rest) :
    readEntries entry (n + 1) isFirst known start = .ok (known, rest) := by
  have last : nextKey? isFirst start = .ok none := by
    simp only [nextKey?, closed]
  rw [readEntries, last]
  simp only [closed]
  rfl

/-- One entry is read, and then the others. -/
theorem readEntries_of_next {entry : String → α → Reader α} {isFirst : Bool} {key : String}
    {known later last : α}
    (more : nextKey? isFirst text = .ok (some (key.toList.foldr Value.writeChar ('"' :: next))))
    (first : entry key known next = readAs nesting depth later tail)
    (others : readEntries entry n false later tail = readAs nesting depth' last rest) :
    readEntries entry (n + 1) isFirst known text = readAs nesting (max depth depth') last rest := by
  have step : readEntries entry (n + 1) isFirst known text =
      entry key known next >>= fun read => readEntries entry n false read.1 read.2 := by
    rw [readEntries, more]
    show readString (key.toList.foldr Value.writeChar ('"' :: next)) >>= (fun named =>
      entry named.1 known named.2 >>= fun read => readEntries entry n false read.1 read.2) = _
    rw [readString_writeString]
    rfl
  rw [step, first]
  apply readAs_bind
  exact others

/-- The entries are read one after another, from what is known to what is known at the end. -/
inductive ReadsEntries (steps nesting : Nat) (entry : String → α → Reader α) :
    α → List (String × Value) → α → Prop where
  | nil (known : α) : ReadsEntries steps nesting entry known [] known
  | cons {key : String} {written : Value} {entries : List (String × Value)} {known next last : α} :
    Reads steps nesting (fun text => entry key known (':' :: text)) written next →
    ReadsEntries steps nesting entry next entries last →
    ReadsEntries steps nesting entry known ((key, written) :: entries) last

/-- Entries are read one after another until one of them is nested too deep. -/
theorem readEntries_write {entry : String → α → Reader α} {entries : List (String × Value)}
    {known last : α} (reads : ReadsEntries steps nesting entry known entries last)
    (short : (Value.writeEntries entries rest).length < steps) (enough : entries.length < n) :
    readEntries entry n false known (Value.writeEntries entries rest) =
      readAs nesting (Value.depthOfEntries entries) last rest := by
  induction reads generalizing n with
  | nil known =>
    obtain ⟨n, rfl⟩ := Nat.exists_eq_add_one_of_ne_zero (Nat.ne_of_gt enough)
    rw [Value.depthOfEntries, readAs_zero]
    exact readEntries_of_end entry false known skipBlank_closeBrace
  | @cons key written entries known next last first _ ih =>
    obtain ⟨n, rfl⟩ := Nat.exists_eq_add_one_of_ne_zero (Nat.ne_zero_of_lt enough)
    have longer := Value.length_write written (Value.writeEntries entries rest)
    have longest := Value.length_writeString key
      (':' :: written.write (Value.writeEntries entries rest))
    rw [Value.writeEntries] at short ⊢
    rw [List.length_cons] at short enough longest
    rw [Value.depthOfEntries]
    refine readEntries_of_next (nextKey?_of_comma skipBlank_comma skipBlank_quote) (first _ ?_ ?_)
      (ih ?_ ?_)
    · exact Value.endsNumber_writeEntries _ _
    all_goals omega

/-- The entries of an object are read behind its brace. -/
theorem exists_write_object {entry : String → α → Reader α} {entries : List (String × Value)}
    {known last : α} (reads : ReadsEntries steps nesting entry known entries last)
    (short : ((Value.object entries).write rest).length < steps) :
    ∃ inner, (Value.object entries).write rest = '{' :: inner ∧
      readEntries entry steps true known inner =
        readAs nesting (Value.depthOfEntries entries) last rest := by
  obtain ⟨n, rfl⟩ := Nat.exists_eq_add_one_of_ne_zero (Nat.ne_zero_of_lt short)
  cases reads with
  | nil =>
    rw [Value.depthOfEntries, readAs_zero]
    exact ⟨'}' :: rest, by rw [Value.write],
      readEntries_of_end entry true known skipBlank_closeBrace⟩
  | @cons key written entries _ next _ first others =>
    have longer := Value.length_write written (Value.writeEntries entries rest)
    have longest := Value.length_writeString key
      (':' :: written.write (Value.writeEntries entries rest))
    have outer := Value.length_writeEntries entries rest
    rw [Value.write, List.length_cons] at short
    rw [List.length_cons] at longest
    refine ⟨_, by rw [Value.write], ?_⟩
    rw [Value.depthOfEntries]
    refine readEntries_of_next (nextKey?_of_first skipBlank_quote) (first _ ?_ ?_)
      (readEntries_write others ?_ ?_)
    · exact Value.endsNumber_writeEntries _ _
    all_goals omega

/-- An object is read where it may be entered, if what is known after its entries tells the value
that is read. -/
theorem reads_object {read : Nat → Reader α} {entry : Nat → String → β → Reader β}
    {entries : List (String × Value)} {known last : β}
    (reads : ∀ nesting, ReadsEntries steps nesting (entry nesting) known entries last)
    (closed : ∀ text, read 0 ('{' :: text) = .error .nestedTooDeep)
    (opened : ∀ nesting depth text rest,
      readEntries (entry nesting) steps true known text = readAs nesting depth last rest →
        read (nesting + 1) ('{' :: text) = readAs nesting depth value rest) :
    Reads steps nesting (read nesting) (.object entries) value := by
  intro rest _ short
  rw [Value.depth]
  cases nesting with
  | zero =>
    obtain ⟨inner, eq, -⟩ := exists_write_object (reads 0) short
    rw [eq, closed, readAs_of_lt (Nat.succ_pos _)]
  | succ nesting =>
    obtain ⟨inner, eq, isRead⟩ := exists_write_object (reads nesting) short
    rw [eq, readAs_succ]
    exact opened nesting _ inner rest isRead

/-- A field that was not known before is read, and what is known with it. -/
theorem reads_field (name : String) (f : α → β) (reads : Reads steps nesting read written value) :
    Reads steps nesting (fun text => do
      let (value, rest) ← readField name none read (':' :: text)
      return (f value, rest)) written (f value) := by
  apply Reads.map f
  intro rest ends short
  unfold readField
  simp only [expectColon_cons]
  exact reads rest ends short

/-! ## Variants -/

theorem startVariant_of_quote (atName : skipBlank start = '"' :: text) :
    startVariant start = .ok text := by
  simp only [startVariant, atName]

theorem readVariantName_of_eq {known : List String} {name : String}
    (isKnown : known.contains name = true) (isName : readString start = .ok (name, rest)) :
    readVariantName known start = .ok (name, rest) := by
  rw [readVariantName, isName]
  show (if known.contains name then _ else _) = _
  rw [if_pos isKnown]
  rfl

theorem endVariant_of_end (closed : skipBlank start = '}' :: rest) :
    endVariant start = .ok rest := by
  simp only [endVariant, closed]

/-- A variant is read if its content is. -/
theorem reads_variant {known : List String} {content : String → Reader α}
    {mere : String → Except ReadError α} {name : String} (isKnown : known.contains name = true)
    (reads : Reads steps nesting (content name) written value) :
    Reads steps (nesting + 1) (readVariant known (some content) mere) (.object [(name, written)])
      value := by
  intro rest ends short
  have longer := Value.length_writeString name (':' :: written.write ('}' :: rest))
  have ends' : EndsNumber ('}' :: rest) := Value.endsNumber_writeEntries [] rest
  rw [Value.write, Value.writeEntries] at short ⊢
  rw [List.length_cons] at short longer
  rw [Value.depth, Value.depthOfEntries, Value.depthOfEntries, Nat.max_zero, readAs_succ]
  simp only [readVariant, skipBlank_openBrace, Value.writeString,
    startVariant_of_quote skipBlank_quote, bind, Except.bind,
    readVariantName_of_eq isKnown (readString_writeString name _), expectColon_cons]
  rw [reads _ ends' (by omega)]
  apply readAs_bind_ok
  simp only [endVariant_of_end skipBlank_closeBrace]
  rfl

theorem reads_variant_none {known : List String} {mere : String → Except ReadError α}
    {entries : List (String × Value)} :
    Reads steps 0 (readVariant known none mere) (.object entries) value := by
  intro rest ends short
  rw [Value.depth, readAs_of_lt (Nat.succ_pos _)]
  cases entries <;> simp only [Value.write, readVariant, skipBlank_openBrace]

/-! ## Documents -/

/-- A written value is read as a document unless it is nested too deep. -/
theorem readDocument_compact {read : Nat → Nat → Reader α}
    (reads : ∀ steps, Reads steps maxNesting (read steps maxNesting) written value) :
    readDocument read written.compact =
      if written.depth ≤ maxNesting then .ok value else .error .nestedTooDeep := by
  have ends : EndsNumber [] := by simp [EndsNumber]
  have first := reads ((written.write []).length + 2) [] ends (by omega)
  rw [readDocument, Value.compact, String.toList_ofList]
  show (read _ maxNesting (written.write []) >>= _) = _
  rw [first]
  by_cases deep : written.depth ≤ maxNesting
  · rw [if_pos deep, readAs, if_pos deep]
    rfl
  · rw [if_neg deep, readAs, if_neg deep]
    rfl

end SearchSpace.Json
