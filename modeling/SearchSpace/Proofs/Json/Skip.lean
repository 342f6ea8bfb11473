import SearchSpace.Proofs.Json.Solid

/-!
# What is well-formed is skipped

A value that nobody wants is skipped if it is well-formed, however deep it is nested and whatever
its numbers and escapes stand for. Each step takes at least one character. So with more steps than
characters there are always more steps left than characters behind what was skipped.
-/

namespace SearchSpace.Json

variable {c letter : Char} {kind : Char → Prop} {key value form : Form} {forms : List Form}
  {start text inner behind rest : List Char} {steps unit : Nat} {enclosure : Enclosing}
  {outer : List Enclosing}

/-! ## Numbers -/

theorem Many.dropWhile_eq (digits : Many (fun c => c.isDigit = true) text rest)
    (ended : startsWithDigit rest = false) : text.dropWhile Char.isDigit = rest := by
  induction digits with
  | @none rest =>
    cases rest with
    | nil => rfl
    | cons c rest => exact List.dropWhile_cons_of_neg (by simpa [startsWithDigit] using ended)
  | more digit _ ih => rw [List.dropWhile_cons_of_pos digit, ih ended]

theorem Digits.startsWithDigit_eq (digits : Digits text rest) : startsWithDigit text = true := by
  cases digits
  assumption

theorem Digits.dropWhile_eq (digits : Digits text rest) (ended : startsWithDigit rest = false) :
    text.dropWhile Char.isDigit = rest := by
  obtain ⟨digit, digits⟩ := digits
  rw [List.dropWhile_cons_of_pos digit, digits.dropWhile_eq ended]

theorem Digits.skipExponentDigits_eq (digits : Digits text rest) (ends : EndsNumber rest) :
    skipExponentDigits text = .ok rest := by
  rw [skipExponentDigits, if_pos digits.startsWithDigit_eq,
    digits.dropWhile_eq ends.startsWithDigit_eq_false]

/-- The mark of an exponent is followed by digits or by a sign. -/
theorem skipScale_of_digit {mark : Char} (isMark : mark ∈ ['e', 'E'])
    (digit : startsWithDigit text = true) : skipScale (mark :: text) = skipExponentDigits text := by
  simp only [List.mem_cons, List.not_mem_nil, or_false] at isMark
  rcases isMark with rfl | rfl <;> unfold skipScale <;> split <;> simp_all [startsWithDigit]

theorem skipScale_of_sign {mark sign : Char} (isMark : mark ∈ ['e', 'E'])
    (isSign : sign ∈ ['+', '-']) : skipScale (mark :: sign :: text) = skipExponentDigits text := by
  simp only [List.mem_cons, List.not_mem_nil, or_false] at isMark isSign
  rcases isMark with rfl | rfl <;> rcases isSign with rfl | rfl <;> rw [skipScale]

theorem skipScale_of_ends (ends : EndsNumber rest) : skipScale rest = .ok rest := by
  unfold skipScale
  split
  case h_7 => rfl
  all_goals simpa using ends _ rfl

/-- An exponent is skipped, and so is nothing in its place. -/
theorem Scale.skipScale_eq (scale : Scale text rest) (ends : EndsNumber rest) :
    skipScale text = .ok rest := by
  cases scale with
  | none => exact skipScale_of_ends ends
  | some mark sign digits =>
    rw [← digits.skipExponentDigits_eq ends]
    cases sign with
    | none => exact skipScale_of_digit mark digits.startsWithDigit_eq
    | some sign => exact skipScale_of_sign mark sign

theorem Scale.startsWithDigit_eq_false (scale : Scale text rest) (ends : EndsNumber rest) :
    startsWithDigit text = false := by
  cases scale with
  | none => exact ends.startsWithDigit_eq_false
  | some mark _ _ =>
    simp only [List.mem_cons, List.not_mem_nil, or_false] at mark
    rcases mark with rfl | rfl <;> rfl

theorem skipAfterWhole_of_scale (scale : Scale text rest) (ends : EndsNumber rest) :
    skipAfterWhole text = .ok rest := by
  rw [← scale.skipScale_eq ends, skipAfterWhole]
  rintro behind rfl
  cases scale with
  | none => simpa using ends _ rfl
  | some mark _ _ => simp at mark

/-- What follows the digits before the point is skipped. -/
theorem Fraction.skipAfterWhole_eq {scale : List Char} (fraction : Fraction text scale)
    (scaled : Scale scale rest) (ends : EndsNumber rest) : skipAfterWhole text = .ok rest := by
  cases fraction with
  | none => exact skipAfterWhole_of_scale scaled ends
  | some digits =>
    rw [skipAfterWhole, if_pos digits.startsWithDigit_eq,
      digits.dropWhile_eq (scaled.startsWithDigit_eq_false ends), scaled.skipScale_eq ends]

theorem Fraction.startsWithDigit_eq_false {scale : List Char} (fraction : Fraction text scale)
    (scaled : Scale scale rest) (ends : EndsNumber rest) : startsWithDigit text = false := by
  cases fraction with
  | none => exact scaled.startsWithDigit_eq_false ends
  | some => rfl

/-- A number is skipped behind its sign. -/
theorem Whole.skipNumber_eq {fraction scale : List Char} (whole : Whole text fraction)
    (fractional : Fraction fraction scale) (scaled : Scale scale rest) (ends : EndsNumber rest) :
    skipNumber text = .ok rest := by
  have ended := fractional.startsWithDigit_eq_false scaled ends
  have skipped := fractional.skipAfterWhole_eq scaled ends
  cases whole with
  | zero => rw [skipNumber, ended, if_neg Bool.false_ne_true, skipped]
  | digits notZero digits =>
    rw [skipNumber, if_pos digits.startsWithDigit_eq, digits.dropWhile_eq ended, skipped]
    rintro _ ⟨⟩
    exact notZero rfl

/-! ## Strings -/

theorem skipString_escape (escaped : escapedChar? letter = some c) :
    skipString ('\\' :: letter :: text) = skipString text := by
  rw [skipString]
  · rw [escaped]
    rfl
  · rintro a b c d rest rfl
    cases escaped
  · rintro rfl
    cases escaped

theorem skipString_plain (plain : Plain c) : skipString (c :: text) = skipString text := by
  obtain ⟨noQuote, noBackslash, noControl⟩ := plain
  rw [skipString, if_neg noControl]
  all_goals simp [noQuote, noBackslash]

/-- Units are skipped without a look at what they stand for. -/
theorem Quoted.skipString_eq (quoted : Quoted text rest) : skipString text = .ok rest := by
  induction quoted with
  | done => rw [skipString]
  | plain plain _ ih => rw [skipString_plain plain, ih]
  | escape escape _ ih => rw [skipString_escape (escapedChar?_of_mem escape), ih]
  | unit escaped _ ih =>
    obtain ⟨a, b, c, d, rfl, digits⟩ := escaped.exists_fourHex
    rw [skipString, digits, ← ih]
    rfl

/-! ## Values -/

/-- The character at the beginning of what encloses a place. -/
def Enclosing.opening : Enclosing → Char
  | .list => '['
  | .object => '{'

/-- The character at its end. -/
def Enclosing.closing : Enclosing → Char
  | .list => ']'
  | .object => '}'

/-- What comes first in it, and behind each comma. -/
def Enclosing.awaited : Enclosing → Awaited
  | .list => .value
  | .object => .key

theorem skip_closing (eq : skipBlank start = enclosure.closing :: rest) :
    skip (steps + 1) .separator (enclosure :: outer) start = skip steps .separator outer rest := by
  cases enclosure <;> simp only [Enclosing.closing] at eq <;> simp only [skip, eq]

theorem skip_comma (eq : skipBlank start = ',' :: rest) :
    skip (steps + 1) .separator (enclosure :: outer) start =
      skip steps enclosure.awaited (enclosure :: outer) rest := by
  cases enclosure <;> simp only [skip, eq, Enclosing.awaited]

theorem skip_empty (eq : skipBlank start = enclosure.opening :: inner)
    (closed : skipBlank inner = enclosure.closing :: rest) :
    skip (steps + 1) .value outer start = skip steps .separator outer rest := by
  cases enclosure <;> simp only [Enclosing.opening, Enclosing.closing] at eq closed <;>
    simp only [skip, eq, closed]

theorem skip_opening (eq : skipBlank start = enclosure.opening :: inner)
    (opened : skipBlank inner = c :: text) (open' : c ≠ ']' ∧ c ≠ '}') :
    skip (steps + 1) .value outer start =
      skip steps enclosure.awaited (enclosure :: outer) (c :: text) := by
  cases enclosure <;> simp only [Enclosing.opening] at eq <;>
    simp only [skip, eq, opened, Enclosing.awaited]
  all_goals
    split <;> simp_all

/-- Whatever has the form is skipped where it is awaited, and more steps are left than
characters. -/
structure Skips (awaited : Awaited) (form : Form) : Prop extends Solid form where
  skip_eq : ∀ ⦃start text rest steps enclosing⦄, form text rest → skipBlank start = text →
    EndsNumber rest → text.length < steps →
      ∃ left, rest.length < left ∧
        skip steps awaited enclosing start = skip left .separator enclosing rest

/-- Something is skipped together with the blanks around it, up to the character that follows. -/
theorem Skips.upTo {awaited : Awaited} {enclosing : List Enclosing} {item : List Char}
    (skips : Skips awaited form) (before : Blanks text item) (inside : form item behind)
    (after : Blanks behind (c :: rest)) (mark : c ∈ punctuation)
    (eq : skipBlank start = skipBlank text) (short : text.length < steps) :
    ∃ left, rest.length < left ∧ skipBlank behind = c :: rest ∧
      skip steps awaited enclosing start = skip (left + 1) .separator enclosing behind := by
  have le := before.length_le
  have le' := after.length_le
  obtain ⟨left, enough, skipped⟩ :=
    skips.skip_eq inside (eq.trans (skips.skipBlank_eq before inside))
      (after.endsNumber (endsNumber_cons mark)) (Nat.lt_of_le_of_lt le short)
  obtain ⟨left, rfl⟩ := Nat.exists_eq_add_one_of_ne_zero (Nat.ne_zero_of_lt enough)
  rw [List.length_cons] at le'
  exact ⟨left, by omega, after.skipBlank_eq_cons mark, skipped⟩

/-- What is enclosed is skipped, with the character that closes it. -/
theorem skip_row (skips : ∀ form ∈ forms, Skips enclosure.awaited form)
    (row : Row enclosure.closing forms text rest) (eq : skipBlank start = skipBlank text)
    (short : text.length < steps) :
    ∃ left, rest.length < left ∧
      skip steps enclosure.awaited (enclosure :: outer) start =
        skip left .separator outer rest := by
  -- Along the row: what one item leaves of the steps is enough for the items behind its comma.
  induction row generalizing start steps with
  | @last form text item behind rest before inside after =>
    have first := skips form (List.mem_singleton_self _)
    have closing : enclosure.closing ∈ punctuation := by cases enclosure <;> decide
    obtain ⟨left, enough, closed, skipped⟩ := first.upTo before inside after closing eq short
    exact ⟨left, enough, skipped.trans (skip_closing closed)⟩
  | more before inside after _ ih =>
    obtain ⟨first, others⟩ := List.forall_mem_cons.1 skips
    obtain ⟨left, enough, comma, skipped⟩ := first.upTo before inside after (by decide) eq short
    obtain ⟨last, enough', skipped'⟩ := ih others rfl enough
    exact ⟨last, enough', skipped.trans ((skip_comma comma).trans skipped')⟩

/-- A list is skipped if its elements are, and an object if its entries are. -/
theorem skips_enclosed (skips : ∀ form ∈ forms, Skips enclosure.awaited form) :
    Skips .value (Enclosed enclosure.opening enclosure.closing forms) where
  toSolid := by
    have shrinks : ∀ form ∈ forms, Shrinks form := fun form member => (skips form member).shrinks
    cases enclosure with
    | list => exact solid_listed shrinks
    | object => exact solid_braced shrinks
  skip_eq := by
    intro start text rest steps enclosing enclosed eq _ short
    obtain ⟨steps, rfl⟩ := Nat.exists_eq_add_one_of_ne_zero (Nat.ne_zero_of_lt short)
    cases enclosed with
    | none blanks =>
      have le := blanks.length_le
      have closing : enclosure.closing ∈ punctuation := by cases enclosure <;> decide
      rw [List.length_cons] at le short
      exact ⟨steps, by omega, skip_empty eq (blanks.skipBlank_eq_cons closing)⟩
    | row row =>
      rw [List.length_cons] at short
      obtain ⟨c, behind, opened, noEnd⟩ := row.opens fun form member => (skips form member).toSolid
      obtain ⟨left, enough, skipped⟩ :=
        skip_row skips row (skipBlank_idem rfl) (Nat.lt_of_succ_lt_succ short)
      refine ⟨left, enough, (skip_opening eq opened noEnd).trans ?_⟩
      rw [← opened]
      exact skipped

/-- An entry is skipped if its value is. -/
theorem skips_entry (skips : Skips .value value) : Skips .key (Entry Quoted value) where
  toSolid := solid_entry shrinks_quoted skips.shrinks
  skip_eq := by
    rintro start _ rest steps enclosing ⟨quoted, toColon, toItem, item⟩ eq ends short
    obtain ⟨steps, rfl⟩ := Nat.exists_eq_add_one_of_ne_zero (Nat.ne_zero_of_lt short)
    have shorter := shrinks_quoted quoted
    have le := toColon.length_le
    have le' := toItem.length_le
    rw [List.length_cons] at short le
    obtain ⟨left, enough, skipped⟩ :=
      skips.skip_eq item (skips.skipBlank_eq toItem item) ends (by omega : _ < steps)
    refine ⟨left, enough, Eq.trans ?_ skipped⟩
    simp only [skip, eq, quoted.skipString_eq, bind, Except.bind,
      toColon.skipBlank_eq_cons (by decide)]

/-- A number begins with a minus sign or with a digit, and is skipped from its first digit on. -/
theorem Numeral.cases_first (numeral : Numeral text rest) :
    (∃ whole, text = '-' :: whole ∧ (EndsNumber rest → skipNumber whole = .ok rest)) ∨
      ∃ c behind, text = c :: behind ∧ c.isDigit = true ∧
        (EndsNumber rest → skipNumber text = .ok rest) := by
  obtain ⟨sign, whole, fraction, scale⟩ := numeral
  have skipped := whole.skipNumber_eq fraction scale
  cases sign with
  | none =>
    obtain ⟨c, behind, rfl, digit⟩ := whole.exists_digit
    exact .inr ⟨c, behind, rfl, digit, skipped⟩
  | some minus =>
    rw [List.mem_singleton.1 minus]
    exact .inl ⟨_, rfl, skipped⟩

theorem skip_digit (eq : skipBlank start = c :: text) (digit : c.isDigit = true) :
    skip (steps + 1) .value outer start =
      (skipNumber (c :: text) >>= fun rest => skip steps .separator outer rest) := by
  rw [skip, eq]
  split
  case h_9 same =>
    cases same
    rw [if_pos digit]
  all_goals simp_all

theorem skips_scalar : Skips .value Scalar where
  toSolid := solid_scalar
  skip_eq := by
    intro start text rest steps enclosing scalar eq ends short
    have shorter := solid_scalar.shrinks scalar
    obtain ⟨steps, rfl⟩ := Nat.exists_eq_add_one_of_ne_zero (Nat.ne_zero_of_lt short)
    refine ⟨steps, by omega, ?_⟩
    rcases scalar with ⟨word, rfl⟩ | numeral | quoted
    · simp only [List.mem_cons, List.not_mem_nil, or_false] at word
      rcases word with rfl | rfl | rfl <;> simp only [List.cons_append, List.nil_append] at eq <;>
        simp [skip, eq, expectWord, bind, Except.bind]
    · rcases numeral.cases_first with ⟨whole, rfl, skipped⟩ | ⟨c, behind, rfl, digit, skipped⟩
      · simp only [skip, eq, skipped ends, bind, Except.bind]
      · rw [skip_digit eq digit, skipped ends]
        rfl
    · simp only [skip, eq, quoted.skipString_eq, bind, Except.bind]

/-- What has one of several forms that are skipped is skipped. -/
theorem skips_of_cases (cases : ∀ ⦃text rest⦄, form text rest →
    ∃ other : Form, other text rest ∧ Skips .value other) : Skips .value form where
  toSolid := by
    apply solid_of_cases
    intro text rest inside
    obtain ⟨other, inside, skips⟩ := cases inside
    exact ⟨other, inside, skips.toSolid⟩
  skip_eq := by
    intro start text rest steps enclosing inside
    obtain ⟨other, inside, skips⟩ := cases inside
    exact skips.skip_eq inside

theorem forall_mem_replicate {length : Nat} {P : Form → Prop} (holds : P form) :
    ∀ other ∈ List.replicate length form, P other := by
  intro other member
  rwa [List.eq_of_mem_replicate member]

theorem skips_wellFormedTo (depth : Nat) : Skips .value (WellFormedTo depth) := by
  induction depth with
  | zero => exact skips_scalar
  | succ depth ih =>
    apply skips_of_cases
    rintro text rest (scalar | ⟨length, listed⟩ | ⟨length, braced⟩)
    · exact ⟨_, scalar, skips_scalar⟩
    · exact ⟨_, listed, @skips_enclosed _ .list (forall_mem_replicate ih)⟩
    · exact ⟨_, braced, @skips_enclosed _ .object (forall_mem_replicate (skips_entry ih))⟩

/-- A well-formed value is skipped, however deep it is nested. -/
theorem skips_wellFormed : Skips .value WellFormed := by
  apply skips_of_cases
  rintro text rest ⟨depth, inside⟩
  exact ⟨_, inside, skips_wellFormedTo depth⟩

theorem skipValue_eq (inside : WellFormed text rest) (eq : skipBlank start = text)
    (ends : EndsNumber rest) (short : text.length < steps) :
    skipValue steps start = .ok rest := by
  obtain ⟨left, enough, skipped⟩ := skips_wellFormed.skip_eq inside eq ends short
  obtain ⟨left, rfl⟩ := Nat.exists_eq_add_one_of_ne_zero (Nat.ne_zero_of_lt enough)
  rw [skipValue, skipped, skip]

end SearchSpace.Json
