import Mathlib.Data.List.DropRight
import SearchSpace.Proofs.Json.Grammar
import SearchSpace.Proofs.Json.Lexeme

/-!
# What forms begin with

Strings, numbers, lists, objects and entries take at least one character and do not begin with a
blank, so the blanks before them end where they begin. Nor do they begin like the end of a list or
an object. Blanks and punctuation are never taken for a part of a number.
-/

namespace SearchSpace.Json

variable {c : Char} {kind : Char → Prop} {key value form : Form} {forms : List Form}
  {start text item behind rest : List Char}

/-- The characters that part the pieces of a list or an object. -/
def punctuation : List Char := [',', ':', ']', '}']

theorem Many.length_le (many : Many kind text rest) : rest.length ≤ text.length := by
  induction many with
  | none => exact Nat.le_refl _
  | more _ _ ih => exact Nat.le_succ_of_le ih

theorem isBlank_iff : isBlank c = true ↔ c ∈ [' ', '\t', '\n', '\r'] := by
  simp only [isBlank, Bool.or_eq_true, beq_iff_eq, List.mem_cons, List.not_mem_nil, or_false]
  constructor
  · rintro (((rfl | rfl) | rfl) | rfl) <;> simp
  · rintro (rfl | rfl | rfl | rfl) <;> simp

theorem Blanks.skipBlank_eq (blanks : Blanks text rest) : skipBlank text = skipBlank rest := by
  induction blanks with
  | none => rfl
  | more blank _ ih =>
    rw [← ih, skipBlank, List.dropWhile_cons_of_pos (isBlank_iff.2 blank), skipBlank]

/-- A number ends where blanks begin. -/
theorem Blanks.endsNumber (blanks : Blanks text rest) (ends : EndsNumber rest) :
    EndsNumber text := by
  cases blanks with
  | none => exact ends
  | more blank _ =>
    rintro c ⟨⟩
    simp only [List.mem_cons, List.not_mem_nil, or_false] at blank
    rcases blank with rfl | rfl | rfl | rfl <;> decide

theorem endsNumber_cons (mark : c ∈ punctuation) : EndsNumber (c :: text) := by
  rintro _ ⟨⟩
  simp only [punctuation, List.mem_cons, List.not_mem_nil, or_false] at mark
  rcases mark with rfl | rfl | rfl | rfl <;> decide

theorem Blanks.skipBlank_eq_cons (blanks : Blanks text (c :: rest))
    (mark : c ∈ punctuation) : skipBlank text = c :: rest := by
  rw [blanks.skipBlank_eq, skipBlank_cons]
  simp only [punctuation, List.mem_cons, List.not_mem_nil, or_false] at mark
  rcases mark with rfl | rfl | rfl | rfl <;> rfl

theorem skipBlank_idem (eq : skipBlank start = text) : skipBlank text = text := by
  rw [← eq, skipBlank, skipBlank]
  exact List.dropWhile_idempotent _ _

/-! ## Forms that are never empty -/

/-- Whatever has the form takes at least one character. -/
def Shrinks (form : Form) : Prop := ∀ ⦃text rest⦄, form text rest → rest.length < text.length

/-- Together with the punctuation behind it, it takes two. -/
theorem Shrinks.between (shrinks : Shrinks form) (before : Blanks text item)
    (inside : form item behind) (after : Blanks behind (c :: rest)) :
    rest.length + 1 < text.length :=
  calc rest.length + 1 ≤ behind.length := after.length_le
    _ < item.length := shrinks inside
    _ ≤ text.length := before.length_le

theorem shrinks_unit16 (unit : Nat) : Shrinks (Unit16 unit) := by
  rintro _ _ ⟨⟩
  simp only [List.length_cons]
  omega

theorem shrinks_quoted : Shrinks Quoted := by
  intro text rest quoted
  induction quoted with
  | done => exact Nat.lt_succ_self _
  | plain _ _ ih => exact Nat.lt_succ_of_lt ih
  | escape _ _ ih => exact Nat.lt_succ_of_lt (Nat.lt_succ_of_lt ih)
  | unit escaped _ ih => exact Nat.lt_trans ih (shrinks_unit16 _ escaped)

theorem shrinks_spells (chars : List Char) : Shrinks (Spells chars) := by
  intro text rest spells
  induction spells with
  | done => exact Nat.lt_succ_self _
  | plain _ _ ih => exact Nat.lt_succ_of_lt ih
  | escape _ _ ih => exact Nat.lt_succ_of_lt (Nat.lt_succ_of_lt ih)
  | unit escaped _ ih => exact Nat.lt_trans ih (shrinks_unit16 _ escaped)
  | pair _ leading trailing _ ih =>
    exact Nat.lt_trans ih (Nat.lt_trans (shrinks_unit16 _ trailing) (shrinks_unit16 _ leading))

theorem shrinks_digits : Shrinks Digits := by
  rintro _ _ ⟨_, digits⟩
  exact Nat.lt_succ_of_le digits.length_le

theorem Perhaps.length_le {kinds : List Char} (perhaps : Perhaps kinds text rest) :
    rest.length ≤ text.length := by
  cases perhaps with
  | none => exact Nat.le_refl _
  | some => exact Nat.le_succ _

theorem Whole.length_lt (whole : Whole text rest) : rest.length < text.length := by
  cases whole with
  | zero => exact Nat.lt_succ_self _
  | digits _ digits => exact shrinks_digits digits

theorem Fraction.length_le (fraction : Fraction text rest) : rest.length ≤ text.length := by
  cases fraction with
  | none => exact Nat.le_refl _
  | some digits => exact Nat.le_succ_of_le (Nat.le_of_lt (shrinks_digits digits))

theorem Scale.length_le (scale : Scale text rest) : rest.length ≤ text.length := by
  cases scale with
  | none => exact Nat.le_refl _
  | some _ sign digits =>
    exact Nat.le_succ_of_le (Nat.le_trans (Nat.le_of_lt (shrinks_digits digits)) sign.length_le)

theorem shrinks_numeral : Shrinks Numeral := by
  rintro _ _ ⟨sign, whole, fraction, scale⟩
  calc _ ≤ _ := scale.length_le
    _ ≤ _ := fraction.length_le
    _ < _ := whole.length_lt
    _ ≤ _ := sign.length_le

theorem shrinks_row {closing : Char} (shrinks : ∀ form ∈ forms, Shrinks form) :
    Shrinks (Row closing forms) := by
  intro text rest row
  induction row with
  | last before inside after =>
    exact Nat.lt_of_succ_lt ((shrinks _ List.mem_cons_self).between before inside after)
  | more before inside after _ ih =>
    obtain ⟨first, others⟩ := List.forall_mem_cons.1 shrinks
    exact Nat.lt_trans (ih others) (Nat.lt_of_succ_lt (first.between before inside after))

/-! ## Forms that do not begin with a blank -/

/-- What has the form is not empty, and begins neither with a blank nor like the end of a list or an
object. -/
structure Solid (form : Form) : Prop where
  opens : ∀ ⦃text rest⦄, form text rest →
    ∃ c behind, text = c :: behind ∧ isBlank c = false ∧ c ≠ ']' ∧ c ≠ '}'
  shrinks : Shrinks form

/-- Blanks before something solid are skipped up to it. -/
theorem Solid.skipBlank_eq (solid : Solid form) (blanks : Blanks start text)
    (inside : form text rest) : skipBlank start = text := by
  obtain ⟨c, behind, rfl, notBlank, _⟩ := solid.opens inside
  rw [blanks.skipBlank_eq, skipBlank_cons notBlank]

theorem Whole.exists_digit (whole : Whole text rest) :
    ∃ c behind, text = c :: behind ∧ c.isDigit = true := by
  cases whole with
  | zero => exact ⟨_, _, rfl, rfl⟩
  | digits _ digits =>
    obtain ⟨digit, _⟩ := digits
    exact ⟨_, _, rfl, digit⟩

theorem solid_digit (digit : c.isDigit = true) : isBlank c = false ∧ c ≠ ']' ∧ c ≠ '}' := by
  refine ⟨isBlank_of_isDigit digit, ?_, ?_⟩ <;> rintro rfl <;> cases digit

theorem solid_numeral : Solid Numeral where
  opens := by
    rintro _ _ ⟨sign, whole, _, _⟩
    cases sign with
    | none =>
      obtain ⟨c, behind, rfl, digit⟩ := whole.exists_digit
      exact ⟨c, behind, rfl, solid_digit digit⟩
    | some minus =>
      rw [List.mem_singleton.1 minus]
      exact ⟨_, _, rfl, rfl, by decide⟩
  shrinks := shrinks_numeral

theorem solid_word {word : List Char} (opens : isBlank c = false ∧ c ≠ ']' ∧ c ≠ '}') :
    Solid (Word (c :: word)) where
  opens := by
    rintro _ rest rfl
    exact ⟨c, word ++ rest, rfl, opens⟩
  shrinks := by
    rintro _ rest rfl
    simp only [List.cons_append, List.length_cons, List.length_append]
    omega

/-- The quote before a string makes it solid. -/
theorem solid_quote (shrinks : Shrinks form) :
    Solid fun text rest => ∃ behind, text = '"' :: behind ∧ form behind rest where
  opens := by
    rintro _ _ ⟨behind, rfl, _⟩
    exact ⟨_, _, rfl, rfl, by decide⟩
  shrinks := by
    rintro _ _ ⟨behind, rfl, inside⟩
    exact Nat.lt_succ_of_lt (shrinks inside)

/-- What has one of several solid forms is solid. -/
theorem solid_of_cases (cases : ∀ ⦃text rest⦄, form text rest →
    ∃ other : Form, other text rest ∧ Solid other) : Solid form where
  opens := by
    intro text rest inside
    obtain ⟨other, inside, solid⟩ := cases inside
    exact solid.opens inside
  shrinks := by
    intro text rest inside
    obtain ⟨other, inside, solid⟩ := cases inside
    exact solid.shrinks inside

theorem solid_scalar : Solid Scalar := by
  apply solid_of_cases
  rintro text rest (⟨word, inside⟩ | numeral | quoted)
  · simp only [List.mem_cons, List.not_mem_nil, or_false] at word
    rcases word with rfl | rfl | rfl <;> exact ⟨_, inside, solid_word (by decide)⟩
  · exact ⟨_, numeral, solid_numeral⟩
  · exact ⟨_, ⟨_, rfl, quoted⟩, solid_quote shrinks_quoted⟩

/-- What comes first in a row is the first character of something solid. -/
theorem Row.opens {closing : Char} (solid : ∀ form ∈ forms, Solid form)
    (row : Row closing forms text rest) :
    ∃ c behind, skipBlank text = c :: behind ∧ c ≠ ']' ∧ c ≠ '}' := by
  obtain ⟨form, item, behind, member, before, inside⟩ :
      ∃ form item behind, form ∈ forms ∧ Blanks text item ∧ form item behind := by
    cases row with
    | last before inside _ => exact ⟨_, _, _, List.mem_cons_self, before, inside⟩
    | more before inside _ _ => exact ⟨_, _, _, List.mem_cons_self, before, inside⟩
  obtain ⟨c, behind, rfl, notBlank, noEnd⟩ := (solid form member).opens inside
  exact ⟨c, behind, (solid form member).skipBlank_eq before inside, noEnd⟩

theorem Enclosed.exists_eq_cons {opening closing : Char}
    (enclosed : Enclosed opening closing forms text rest) : ∃ inner, text = opening :: inner := by
  cases enclosed <;> exact ⟨_, rfl⟩

theorem solid_enclosed {opening closing : Char}
    (opens : isBlank opening = false ∧ opening ≠ ']' ∧ opening ≠ '}')
    (shrinks : ∀ form ∈ forms, Shrinks form) : Solid (Enclosed opening closing forms) where
  opens := by
    intro text rest enclosed
    obtain ⟨inner, rfl⟩ := enclosed.exists_eq_cons
    exact ⟨_, _, rfl, opens⟩
  shrinks := by
    rintro _ _ (blanks | row)
    · have le := blanks.length_le
      rw [List.length_cons] at le ⊢
      omega
    · exact Nat.lt_succ_of_lt (shrinks_row shrinks row)

theorem solid_listed (shrinks : ∀ form ∈ forms, Shrinks form) : Solid (Listed forms) :=
  solid_enclosed (by decide) shrinks

theorem solid_braced (shrinks : ∀ form ∈ forms, Shrinks form) : Solid (Braced forms) :=
  solid_enclosed (by decide) shrinks

theorem solid_entry (shrinksKey : Shrinks key) (shrinks : Shrinks value) :
    Solid (Entry key value) where
  opens := by
    rintro _ _ ⟨⟩
    exact ⟨_, _, rfl, rfl, by decide⟩
  shrinks := by
    rintro _ _ ⟨named, toColon, toItem, inside⟩
    have first := shrinksKey.between .none named toColon
    have second := Nat.lt_of_lt_of_le (shrinks inside) toItem.length_le
    rw [List.length_cons]
    omega

end SearchSpace.Json
