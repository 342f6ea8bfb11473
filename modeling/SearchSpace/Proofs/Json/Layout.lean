import SearchSpace.Proofs.Json.Accepted
import SearchSpace.Proofs.Json.Reader
import SearchSpace.Proofs.Json.Skip

/-!
# Values are read however they are laid out

A reader accepts a form if it takes whatever has that form off the front of a text, with the blanks
before it. Readers of lists, variants and objects accept the forms that are built from those that
the readers of their parts accept. So what is read of a value does not depend on the blanks between
its pieces or on the escapes in its strings.
-/

namespace SearchSpace.Json

variable {α β : Type} {steps n : Nat} {c : Char} {read element : Reader α} {form : Form}
  {forms : List Form} {value : α} {start text behind rest : List Char}

/-! ## Numbers and strings -/

/-- The reader takes whatever has the form off the front of any text shorter than the given number
of steps, with the blanks before it. -/
structure Accepts (steps : Nat) (read : Reader α) (form : Form) (value : α) : Prop
    extends Solid form where
  read_eq : ∀ ⦃start text rest⦄, form text rest → skipBlank start = text → EndsNumber rest →
    text.length < steps → read start = .ok (value, rest)

/-- Data made of a value is read where the value is. -/
theorem Accepts.map (f : α → β) (accepts : Accepts steps read form value) :
    Accepts steps (fun text => do
      let (value, rest) ← read text
      return (f value, rest)) form (f value) where
  toSolid := accepts.toSolid
  read_eq := by
    intro start text rest inside eq ends short
    simp only [accepts.read_eq inside eq ends short]
    rfl

/-- What one item of a row takes up: the reader stops behind it, before the punctuation. -/
theorem Accepts.upTo {item : List Char} (accepts : Accepts steps read form value)
    (before : Blanks text item) (inside : form item behind) (after : Blanks behind (c :: rest))
    (mark : c ∈ punctuation) (short : text.length < steps) :
    skipBlank behind = c :: rest ∧ rest.length + 1 < text.length ∧
      read (skipBlank text) = .ok (value, behind) := by
  have atItem : skipBlank (skipBlank text) = item := by
    rw [skipBlank_idem rfl, accepts.skipBlank_eq before inside]
  refine ⟨after.skipBlank_eq_cons mark, accepts.shrinks.between before inside after, ?_⟩
  exact accepts.read_eq inside atItem (after.endsNumber (endsNumber_cons mark))
    (Nat.lt_of_le_of_lt before.length_le short)

theorem accepts_natural {expected : String} {bound value : Nat} (below : value < bound)
    (small : value < UInt64.size) :
    Accepts steps (readNatural expected bound) (Value.Layout (.number value)) value where
  toSolid := Value.solid_layout _
  read_eq := by
    rintro start _ rest rfl eq ends _
    have same : skipBlank start = skipBlank (Value.writeNumber value rest) :=
      eq.trans (skipBlank_idem eq).symm
    have unblank : readNatural expected bound start =
        readNatural expected bound (Value.writeNumber value rest) := by
      rw [readNatural, readNatural, same]
    rw [unblank, readNatural_writeNumber below small ends]

theorem accepts_text (expected value : String) :
    Accepts steps (readText expected) (Value.Layout (.text value)) value where
  toSolid := Value.solid_layout _
  read_eq := by
    rintro start _ rest ⟨behind, rfl, spells⟩ eq _ _
    simp only [readText, eq]
    exact spells.readString_eq

/-! ## Lists -/

/-- A row begins with an item. -/
theorem Row.nextElement?_first (row : Row ']' forms text rest)
    (solid : ∀ form ∈ forms, Solid form) :
    nextElement? true text = .ok (some (skipBlank text)) := by
  obtain ⟨c, behind, opened, noEnd, -⟩ := row.opens solid
  rw [nextElement?_of_first opened noEnd, opened]

/-- Behind a comma there is another row. -/
theorem Row.nextElement?_later (row : Row ']' forms text rest)
    (solid : ∀ form ∈ forms, Solid form) (comma : skipBlank start = ',' :: text) :
    nextElement? false start = .ok (some (skipBlank text)) := by
  obtain ⟨c, behind, opened, noEnd, -⟩ := row.opens solid
  rw [nextElement?_of_comma comma opened noEnd, opened]

theorem readElements_of_more {isFirst : Bool} {next : List Char} {values : List α}
    (more : nextElement? isFirst start = .ok (some next))
    (first : element next = .ok (value, behind))
    (others : readElements element n false behind = .ok (values, rest)) :
    readElements element (n + 1) isFirst start = .ok (value :: values, rest) := by
  rw [readElements, more]
  simp only [first, others, bind, Except.bind]
  rfl

/-- Either the first item of a row is the last one, or a comma and another row follow. -/
theorem Accepts.first {closing : Char} (accepts : Accepts steps read form value)
    (row : Row closing (form :: forms) text rest) (mark : closing ∈ punctuation)
    (short : text.length < steps) :
    ∃ behind, read (skipBlank text) = .ok (value, behind) ∧
      (forms = [] ∧ skipBlank behind = closing :: rest ∨
        ∃ others, skipBlank behind = ',' :: others ∧ others.length < text.length ∧
          Row closing forms others rest) := by
  cases row with
  | last before inside after =>
    obtain ⟨closed, -, isRead⟩ := accepts.upTo before inside after mark short
    exact ⟨_, isRead, .inl ⟨rfl, closed⟩⟩
  | more before inside after row =>
    obtain ⟨comma, less, isRead⟩ := accepts.upTo before inside after (by decide) short
    exact ⟨_, isRead, .inr ⟨_, comma, Nat.lt_of_succ_lt less, row⟩⟩

theorem solid_of_accepts {values : List α}
    (accepts : List.Forall₂ (Accepts steps element) forms values) : ∀ form ∈ forms, Solid form := by
  induction accepts with
  | nil => simp
  | cons first _ ih => exact List.forall_mem_cons.2 ⟨first.toSolid, ih⟩

/-- Elements are read one after another, up to the end of the list. -/
theorem readElements_row {values : List α} {isFirst : Bool}
    (accepts : List.Forall₂ (Accepts steps element) forms values) (row : Row ']' forms text rest)
    (more : nextElement? isFirst start = .ok (some (skipBlank text)))
    (short : text.length < steps) (enough : text.length < n) :
    readElements element n isFirst start = .ok (values, rest) := by
  induction row generalizing values start n isFirst with
  | last before inside after =>
    obtain _ | ⟨first, _ | _⟩ := accepts
    obtain ⟨closed, less, read⟩ := first.upTo before inside after (by decide) short
    -- One step for the element and one for the bracket, each of which is at least a character.
    obtain ⟨n, rfl⟩ : ∃ m, n = m + 1 + 1 := ⟨n - 2, by omega⟩
    exact readElements_of_more more read (readElements_of_end element false closed)
  | more before inside after row ih =>
    obtain _ | ⟨first, others⟩ := accepts
    obtain ⟨comma, less, read⟩ := first.upTo before inside after (by decide) short
    obtain ⟨n, rfl⟩ := Nat.exists_eq_add_one_of_ne_zero (Nat.ne_zero_of_lt enough)
    have next := row.nextElement?_later (solid_of_accepts others) comma
    exact readElements_of_more more read (ih others next (by omega) (by omega))

/-- A list is read however it is laid out if its elements are. -/
theorem accepts_list {values : List α}
    (accepts : List.Forall₂ (Accepts steps element) forms values) :
    Accepts steps (readList steps (some element)) (Listed forms) values where
  toSolid := solid_listed fun form member => (solid_of_accepts accepts form member).shrinks
  read_eq := by
    intro start text rest listed eq _ short
    cases listed with
    | none blanks =>
      cases accepts
      obtain ⟨steps, rfl⟩ := Nat.exists_eq_add_one_of_ne_zero (Nat.ne_zero_of_lt short)
      simp only [readList, eq]
      exact readElements_of_end element true (blanks.skipBlank_eq_cons (by decide))
    | row row =>
      rw [List.length_cons] at short
      have next := row.nextElement?_first (solid_of_accepts accepts)
      simp only [readList, eq]
      exact readElements_row accepts row next (by omega) (by omega)

/-! ## Entries -/

/-- The value of an entry is accepted by a reader that starts behind the key. -/
structure AcceptsEntry (steps : Nat) (read : Reader α) (form : Form) (value : α) : Prop
    extends Solid form where
  read_eq : ∀ ⦃start colon text rest⦄, expectColon start = .ok colon → form text rest →
    skipBlank colon = text → EndsNumber rest → text.length < steps → read start = .ok (value, rest)

theorem expectColon_of_blanks {colon : List Char} (blanks : Blanks start (':' :: colon)) :
    expectColon start = .ok colon := by
  simp only [expectColon, blanks.skipBlank_eq_cons (by decide)]

/-- A reader that passes the colon first accepts what is accepted behind it. -/
theorem Accepts.behindColon (accepts : Accepts steps read form value) :
    AcceptsEntry steps (fun text => do read (← expectColon text)) form value where
  toSolid := accepts.toSolid
  read_eq := by
    intro start colon text rest passed inside eq ends short
    simp only [passed]
    exact accepts.read_eq inside eq ends short

theorem AcceptsEntry.map (f : α → β) (accepts : AcceptsEntry steps read form value) :
    AcceptsEntry steps (fun text => do
      let (value, rest) ← read text
      return (f value, rest)) form (f value) where
  toSolid := accepts.toSolid
  read_eq := by
    intro start colon text rest passed inside eq ends short
    simp only [accepts.read_eq passed inside eq ends short]
    rfl

/-- A field that was not known before is read. -/
theorem acceptsEntry_field (name : String) (accepts : Accepts steps read form value) :
    AcceptsEntry steps (readField name none read) form value :=
  accepts.behindColon

/-- A field that nobody knows is skipped, and nothing is known after it that was not before. -/
theorem acceptsEntry_skipField (known : α) :
    AcceptsEntry steps (skipField steps known) WellFormed known where
  toSolid := skips_wellFormed.toSolid
  read_eq := by
    intro start colon text rest passed inside eq ends short
    simp only [skipField, passed, bind, Except.bind, skipValue_eq inside eq ends short]
    rfl

theorem readEntries_of_more {entry : String → α → Reader α} {isFirst : Bool} {key : String}
    {known later last : α} {next named : List Char}
    (more : nextKey? isFirst start = .ok (some next)) (name : readString next = .ok (key, named))
    (first : entry key known named = .ok (later, behind))
    (others : readEntries entry n false later behind = .ok (last, rest)) :
    readEntries entry (n + 1) isFirst known start = .ok (last, rest) := by
  rw [readEntries, more]
  simp only [name, first, others, bind, Except.bind]

/-- The entries are read one after another, from what is known to what is known at the end. -/
inductive AcceptsEntries (steps : Nat) (entry : String → α → Reader α) :
    α → List Form → α → Prop where
  | nil (known : α) : AcceptsEntries steps entry known [] known
  | cons {key : String} {form : Form} {forms : List Form} {known next last : α} :
    AcceptsEntry steps (entry key known) form next → AcceptsEntries steps entry next forms last →
    AcceptsEntries steps entry known (Entry (Spells key.toList) form :: forms) last

/-- What one entry of a row takes up. -/
theorem AcceptsEntry.upTo {key : String} {item : List Char}
    (accepts : AcceptsEntry steps read form value) (before : Blanks text item)
    (inside : Entry (Spells key.toList) form item behind) (after : Blanks behind (c :: rest))
    (mark : c ∈ punctuation) (short : text.length < steps) :
    ∃ inner named, skipBlank text = '"' :: inner ∧ readString inner = .ok (key, named) ∧
      read named = .ok (value, behind) ∧ skipBlank behind = c :: rest ∧
      rest.length + 1 < text.length := by
  have solid : Solid (Entry (Spells key.toList) form) :=
    solid_entry (shrinks_spells _) accepts.shrinks
  have atItem := solid.skipBlank_eq before inside
  have less := solid.shrinks.between before inside after
  have le := before.length_le
  obtain ⟨named, toColon, toValue, value⟩ := inside
  have shorter := (shrinks_spells _).between .none named toColon
  have le' := toValue.length_le
  rw [List.length_cons] at le
  refine ⟨_, _, atItem, named.readString_eq, ?_, after.skipBlank_eq_cons mark, less⟩
  exact accepts.read_eq (expectColon_of_blanks toColon) value (accepts.skipBlank_eq toValue value)
    (after.endsNumber (endsNumber_cons mark)) (by omega)

/-- Entries are read one after another, up to the end of the object. -/
theorem readEntries_row {entry : String → α → Reader α} {isFirst : Bool} {known last : α}
    (accepts : AcceptsEntries steps entry known forms last) (row : Row '}' forms text rest)
    (more : ∀ inner, skipBlank text = '"' :: inner → nextKey? isFirst start = .ok (some inner))
    (short : text.length < steps) (enough : text.length < n) :
    readEntries entry n isFirst known start = .ok (last, rest) := by
  induction row generalizing known start n isFirst with
  | last before inside after =>
    obtain _ | ⟨first, _ | _⟩ := accepts
    obtain ⟨inner, named, atKey, name, read, closed, less⟩ :=
      first.upTo before inside after (by decide) short
    obtain ⟨n, rfl⟩ : ∃ m, n = m + 1 + 1 := ⟨n - 2, by omega⟩
    exact readEntries_of_more (more inner atKey) name read (readEntries_of_end _ false _ closed)
  | more before inside after row ih =>
    obtain _ | ⟨first, others⟩ := accepts
    obtain ⟨inner, named, atKey, name, read, comma, less⟩ :=
      first.upTo before inside after (by decide) short
    obtain ⟨n, rfl⟩ := Nat.exists_eq_add_one_of_ne_zero (Nat.ne_zero_of_lt enough)
    refine readEntries_of_more (more inner atKey) name read (ih others ?_ (by omega) (by omega))
    exact fun _ atKey => nextKey?_of_comma comma atKey

/-- The entries of an object are read behind its brace, however it is laid out. -/
theorem readEntries_braced {entry : String → α → Reader α} {known last : α}
    (accepts : AcceptsEntries steps entry known forms last)
    (braced : Braced forms ('{' :: text) rest)
    (short : ('{' :: text).length < steps) :
    readEntries entry steps true known text = .ok (last, rest) := by
  rw [List.length_cons] at short
  cases braced with
  | none blanks =>
    cases accepts
    obtain ⟨steps, rfl⟩ := Nat.exists_eq_add_one_of_ne_zero (Nat.ne_zero_of_lt short)
    exact readEntries_of_end entry true known (blanks.skipBlank_eq_cons (by decide))
  | row row =>
    exact readEntries_row accepts row (fun _ => nextKey?_of_first) (by omega) (by omega)

/-! ## Variants, lists of known length and documents -/

/-- A variant is read however it is laid out if its content is. -/
theorem accepts_variant {known : List String} {content : String → Reader α}
    {mere : String → Except ReadError α} {name : String} (isKnown : known.contains name = true)
    (accepts : Accepts steps (content name) form value) :
    Accepts steps (readVariant known (some content) mere)
      (Braced [Entry (Spells name.toList) form]) value where
  toSolid := solid_braced fun _ member => by
    rw [List.mem_singleton.1 member]
    exact (solid_entry (shrinks_spells _) accepts.shrinks).shrinks
  read_eq := by
    intro start text rest braced eq _ short
    obtain _ | ⟨⟨before, inside, after⟩ | ⟨_, _, _, ⟨⟩⟩⟩ := braced
    rw [List.length_cons] at short
    obtain ⟨inner, named, atName, isName, read, closed, -⟩ :=
      accepts.behindColon.upTo before inside after (by decide) (by omega)
    obtain ⟨colon, passed, read⟩ := exists_of_bind_eq_ok read
    simp only [readVariant, eq, startVariant_of_quote atName, readVariantName_of_eq isKnown isName,
      passed, read, endVariant_of_end closed, bind, Except.bind]
    rfl

theorem readElement_of_next {expected : String} {length : Nat} {next : List Char}
    (more : nextElement? (length == 0) start = .ok (some next))
    (read : element next = .ok (value, behind)) :
    readElement expected length element start = .ok (value, behind) := by
  simp only [readElement, more, bind, Except.bind, read]

/-- A document may have blanks at both ends. -/
theorem readDocument_of_accepts {read : Nat → Nat → Reader α} {document : String}
    (accepts : ∀ steps, Accepts steps (read steps maxNesting) form value)
    (before : Blanks document.toList text) (inside : form text behind) (after : Blanks behind []) :
    readDocument read document = .ok value := by
  have accepts := accepts (document.toList.length + 2)
  have ends : EndsNumber [] := by simp [EndsNumber]
  have le := before.length_le
  have isRead := accepts.read_eq inside (accepts.skipBlank_eq before inside)
    (after.endsNumber ends) (by omega)
  have ended : skipBlank behind = [] := after.skipBlank_eq
  simp only [readDocument, isRead, bind, Except.bind, ended]
  rfl

end SearchSpace.Json
