import Mathlib.Data.Nat.Notation
import SearchSpace.Json.Reader
import SearchSpace.Proofs.Json.Grammar

/-!
# Strings and numbers are read as they were written

A string is read however its characters are written, as they are or in escapes. So a written string
is read back whatever characters it holds. A written number is read back up to `2 ^ 64 - 1` unless
what follows it would be taken for a part of it.
-/

namespace SearchSpace.Json

variable {c letter : Char} {text rest : List Char} {unit : Nat}

/-! ## Punctuation -/

theorem skipBlank_cons (notBlank : isBlank c = false) : skipBlank (c :: text) = c :: text := by
  rw [skipBlank, List.dropWhile_cons_of_neg (by simp [notBlank])]

@[simp] theorem skipBlank_quote : skipBlank ('"' :: text) = '"' :: text := skipBlank_cons rfl

@[simp] theorem skipBlank_colon : skipBlank (':' :: text) = ':' :: text := skipBlank_cons rfl

@[simp] theorem skipBlank_comma : skipBlank (',' :: text) = ',' :: text := skipBlank_cons rfl

@[simp] theorem skipBlank_openBracket : skipBlank ('[' :: text) = '[' :: text := skipBlank_cons rfl

@[simp] theorem skipBlank_closeBracket : skipBlank (']' :: text) = ']' :: text := skipBlank_cons rfl

@[simp] theorem skipBlank_openBrace : skipBlank ('{' :: text) = '{' :: text := skipBlank_cons rfl

@[simp] theorem skipBlank_closeBrace : skipBlank ('}' :: text) = '}' :: text := skipBlank_cons rfl

/-! ## Strings -/

theorem HexDigit.hexValue?_eq {digit : Nat} (isDigit : HexDigit digit c) :
    hexValue? c = some digit := by
  have lower : ∀ digit : Fin 16, hexValue? (lowerDigits.get digit) = some digit.val := by decide
  have upper : ∀ digit : Fin 16, hexValue? (upperDigits.get digit) = some digit.val := by decide
  rcases isDigit with isDigit | isDigit
  all_goals obtain ⟨small, rfl⟩ := List.getElem?_eq_some_iff.1 isDigit
  · exact lower ⟨digit, small⟩
  · exact upper ⟨digit, small⟩

theorem Unit16.exists_fourHex (escaped : Unit16 unit text rest) :
    ∃ a b c d, text = '\\' :: 'u' :: a :: b :: c :: d :: rest ∧ fourHex? a b c d = some unit := by
  obtain ⟨first, second, third, fourth⟩ := escaped
  refine ⟨_, _, _, _, rfl, ?_⟩
  simp [fourHex?, first.hexValue?_eq, second.hexValue?_eq, third.hexValue?_eq, fourth.hexValue?_eq]

theorem escapedChar?_of_mem (escape : (letter, c) ∈ escapes) : escapedChar? letter = some c := by
  simp only [escapes, List.mem_cons, Prod.mk.injEq, List.not_mem_nil, or_false] at escape
  rcases escape with ⟨rfl, rfl⟩ | ⟨rfl, rfl⟩ | ⟨rfl, rfl⟩ | ⟨rfl, rfl⟩ | ⟨rfl, rfl⟩ |
    ⟨rfl, rfl⟩ | ⟨rfl, rfl⟩ | ⟨rfl, rfl⟩ <;> rfl

theorem readChars_escape (escaped : escapedChar? letter = some c) :
    readChars ('\\' :: letter :: text) = consChar c (readChars text) := by
  rw [readChars]
  · rw [escaped]
  · rintro a b c d rest rfl
    cases escaped
  · rintro rfl
    cases escaped

theorem readChars_unit {a b d e : Char} (digits : fourHex? a b d e = some c.toNat) :
    readChars ('\\' :: 'u' :: a :: b :: d :: e :: text) = consChar c (readChars text) := by
  have valid : c.toNat < 0xd800 ∨ 0xdfff < c.toNat := c.valid.imp_right And.left
  have notTrailing : isTrailing c.toNat = false := by
    simp [isTrailing]
    omega
  have notLeading : isLeading c.toNat = false := by
    simp [isLeading]
    omega
  rw [readChars, digits]
  simp [notTrailing, notLeading]

/-- The two units of a character beyond the units of sixteen bits make it up. -/
theorem readChars_pair {a b d e a' b' d' e' : Char} (large : 0x10000 ≤ c.toNat)
    (leading : fourHex? a b d e = some (0xd800 + (c.toNat - 0x10000) / 0x400))
    (trailing : fourHex? a' b' d' e' = some (0xdc00 + (c.toNat - 0x10000) % 0x400)) :
    readChars ('\\' :: 'u' :: a :: b :: d :: e :: '\\' :: 'u' :: a' :: b' :: d' :: e' :: text) =
      consChar c (readChars text) := by
  have bound : c.toNat < 0x110000 := by
    rcases c.valid with low | ⟨-, high⟩
    · exact Nat.lt_trans low (by decide)
    · exact high
  have notTrailing : isTrailing (0xd800 + (c.toNat - 0x10000) / 0x400) = false := by
    simp [isTrailing]
    omega
  have isLeading : isLeading (0xd800 + (c.toNat - 0x10000) / 0x400) = true := by
    simp [isLeading]
    omega
  have isTrailing : isTrailing (0xdc00 + (c.toNat - 0x10000) % 0x400) = true := by
    simp [isTrailing]
    omega
  have paired : pairedChar (0xd800 + (c.toNat - 0x10000) / 0x400)
      (0xdc00 + (c.toNat - 0x10000) % 0x400) = c := by
    have sum : (0xd800 + (c.toNat - 0x10000) / 0x400 - 0xd800) * 0x400 +
        (0xdc00 + (c.toNat - 0x10000) % 0x400 - 0xdc00) + 0x10000 = c.toNat := by omega
    rw [pairedChar, sum, Char.ofNat_toNat]
  rw [readChars, leading]
  simp [notTrailing, isLeading, trailing, isTrailing, paired]

theorem readChars_plain (plain : Plain c) :
    readChars (c :: text) = consChar c (readChars text) := by
  obtain ⟨noQuote, noBackslash, noControl⟩ := plain
  rw [readChars, if_neg noControl]
  all_goals simp [noQuote, noBackslash]

/-- A string is read however its characters are written. -/
theorem Spells.readChars_eq {chars : List Char} (spells : Spells chars text rest) :
    readChars text = .ok (chars, rest) := by
  induction spells with
  | done => rw [readChars]
  | plain plain _ ih =>
    rw [readChars_plain plain, ih]
    rfl
  | escape escape _ ih =>
    rw [readChars_escape (escapedChar?_of_mem escape), ih]
    rfl
  | unit escaped _ ih =>
    obtain ⟨_, _, _, _, rfl, digits⟩ := escaped.exists_fourHex
    rw [readChars_unit digits, ih]
    rfl
  | pair large first second _ ih =>
    obtain ⟨_, _, _, _, rfl, leading⟩ := first.exists_fourHex
    obtain ⟨_, _, _, _, rfl, trailing⟩ := second.exists_fourHex
    rw [readChars_pair large leading trailing, ih]
    rfl

theorem Spells.readString_eq {name : String} (spells : Spells name.toList text rest) :
    readString text = .ok (name, rest) := by
  rw [readString, spells.readChars_eq]
  simp [Except.map]

/-- Characters that need no escapes spell themselves. -/
theorem spells_self {chars : List Char} (plain : ∀ c ∈ chars, Plain c) (rest : List Char) :
    Spells chars (chars ++ '"' :: rest) rest := by
  induction chars with
  | nil => exact .done
  | cons c chars ih =>
    obtain ⟨first, others⟩ := List.forall_mem_cons.1 plain
    exact .plain first (ih others)

theorem hexDigit_hexDigit (digit : Fin 16) : HexDigit digit.val (Value.hexDigit digit.val) := by
  have table : ∀ digit : Fin 16, lowerDigits[digit.val]? = some (Value.hexDigit digit.val) := by
    decide
  exact .inl (table digit)

theorem unit16_of_control (control : c < ' ') :
    Unit16 c.toNat ('\\' :: 'u' :: '0' :: '0' :: Value.hexDigit (c.toNat / 16) ::
      Value.hexDigit (c.toNat % 16) :: rest) rest := by
  have small : c.toNat < 32 := control
  have high := hexDigit_hexDigit ⟨c.toNat / 16, by omega⟩
  have low := hexDigit_hexDigit ⟨c.toNat % 16, by omega⟩
  have zero : HexDigit 0 '0' := .inl rfl
  have sum : ((0 * 16 + 0) * 16 + c.toNat / 16) * 16 + c.toNat % 16 = c.toNat := by omega
  have unit : Unit16 _ _ rest := .digits zero zero high low
  rwa [sum] at unit

theorem spells_writeChar {chars : List Char} (c : Char) (spells : Spells chars text rest) :
    Spells (c :: chars) (Value.writeChar c text) rest := by
  unfold Value.writeChar
  split
  case h_8 noQuote noBackslash _ _ _ _ _ =>
    split
    · next control => exact .unit (unit16_of_control control) spells
    · next noControl => exact .plain ⟨noQuote, noBackslash, noControl⟩ spells
  all_goals exact .escape (by decide) spells

/-- A string that is written spells itself. -/
theorem spells_foldr_writeChar (chars rest : List Char) :
    Spells chars (chars.foldr Value.writeChar ('"' :: rest)) rest := by
  induction chars with
  | nil => exact .done
  | cons c chars ih => exact spells_writeChar c ih

theorem readString_writeString (value : String) (rest : List Char) :
    readString (value.toList.foldr Value.writeChar ('"' :: rest)) = .ok (value, rest) :=
  (spells_foldr_writeChar value.toList rest).readString_eq

/-- A written string ends where it ends, whatever follows. -/
theorem writeString_inj {value value' : String} {rest' : List Char}
    (same : Value.writeString value rest = Value.writeString value' rest') :
    value = value' ∧ rest = rest' := by
  have read := congrArg readString (List.cons.inj same).2
  rw [readString_writeString, readString_writeString] at read
  cases read
  exact ⟨rfl, rfl⟩

/-! ## Numbers -/

/-- What follows is not taken for a part of a number. -/
def EndsNumber (rest : List Char) : Prop :=
  ∀ c ∈ rest.head?, c.isDigit = false ∧ c ≠ '.' ∧ c ≠ 'e' ∧ c ≠ 'E'

theorem EndsNumber.startsWithDigit_eq_false (ends : EndsNumber rest) :
    startsWithDigit rest = false := by
  cases rest with
  | nil => rfl
  | cons c rest => exact (ends c rfl).1

theorem le_ofDigitChars (digits : List Char) (value : Nat) :
    value ≤ Nat.ofDigitChars 10 digits value := by
  induction digits generalizing value with
  | nil => exact Nat.le_refl _
  | cons digit digits ih =>
    have le := ih (10 * value + (digit.toNat - '0'.toNat))
    rw [Nat.ofDigitChars_cons]
    omega

/-- Digits are appended up to the end of a number below `2 ^ 64`. -/
theorem appendDigits_eq {digits : List Char} (areDigits : ∀ c ∈ digits, c.isDigit = true)
    (ends : EndsNumber rest) {value : Nat}
    (small : Nat.ofDigitChars 10 digits value < UInt64.size) :
    appendDigits value (digits ++ rest) =
      (Nat.ofDigitChars 10 digits value, digits.length, rest) := by
  induction digits generalizing value with
  | nil =>
    cases rest with
    | nil => rfl
    | cons c rest =>
      have notDigit := (ends c rfl).1
      simp [appendDigits, notDigit]
  | cons digit digits ih =>
    have ⟨isDigit, areDigits⟩ := List.forall_mem_cons.1 areDigits
    rw [Nat.ofDigitChars_cons, Nat.mul_comm] at small
    have smaller := le_ofDigitChars digits (value * 10 + (digit.toNat - '0'.toNat))
    have fits : value * 10 + digitValue digit < UInt64.size := by
      simp only [digitValue]
      omega
    rw [List.cons_append, appendDigits, isDigit]
    simp only [Bool.true_and, decide_eq_true_eq, if_pos fits]
    simp only [digitValue]
    rw [ih areDigits small]
    simp [Nat.ofDigitChars_cons, Nat.mul_comm]

theorem readAfterWhole_of_ends (ends : EndsNumber rest) (negative : Bool) (significand : Nat) :
    readAfterWhole negative significand rest = wholeNumber negative significand rest := by
  cases rest with
  | nil => rw [readAfterWhole] <;> simp
  | cons c rest =>
    have ⟨_, noPoint, noLower, noUpper⟩ := ends c rfl
    rw [readAfterWhole]
    all_goals simp [noPoint, noLower, noUpper]

/-- The first digit of a number other than zero. -/
theorem exists_first_digit {value : Nat} (positive : value ≠ 0) :
    ∃ digit digits, Nat.toDigits 10 value = digit :: digits ∧ digit ≠ '0' := by
  induction value using Nat.strongRecOn with
  | ind value ih =>
    by_cases small : value < 10
    · have table : ∀ digit : Fin 10, digit.val ≠ 0 → digit.val.digitChar ≠ '0' := by decide
      exact ⟨value.digitChar, [], Nat.toDigits_of_lt_base small, table ⟨value, small⟩ positive⟩
    · obtain ⟨digit, digits, eq, notZero⟩ := ih (value / 10) (by omega) (by omega)
      rw [Nat.toDigits_of_base_le (by decide) (by omega), eq]
      exact ⟨digit, _, rfl, notZero⟩

/-- A number is read as it was written. -/
theorem readNumber_writeNumber {value : Nat} (small : value < UInt64.size)
    (ends : EndsNumber rest) :
    readNumber false (Value.writeNumber value rest) = .ok (.integer value, rest) := by
  rw [Value.writeNumber]
  by_cases zero : value = 0
  · subst zero
    rw [Nat.toDigits_zero, List.singleton_append, readNumber, ends.startsWithDigit_eq_false,
      if_neg (by decide), readAfterWhole_of_ends ends]
    rfl
  · obtain ⟨digit, digits, eq, notZero⟩ := exists_first_digit zero
    have isDigit (c : Char) (member : c ∈ digit :: digits) : c.isDigit = true := by
      rw [← eq] at member
      exact Nat.isDigit_of_mem_toDigits (by decide) (by decide) member
    have ⟨first, others⟩ := List.forall_mem_cons.1 isDigit
    have value_eq : Nat.ofDigitChars 10 digits (digitValue digit) = value := by
      have back := Nat.ofDigitChars_ten_toDigits (n := value)
      rw [eq, Nat.ofDigitChars_cons, Nat.mul_zero, Nat.zero_add] at back
      exact back
    have appended := appendDigits_eq others ends (value_eq ▸ small)
    rw [eq, List.cons_append, readNumber]
    · simp [first, appended, ends.startsWithDigit_eq_false, readAfterWhole_of_ends ends, value_eq,
        wholeNumber]
    · exact notZero

theorem isBlank_of_isDigit (digit : c.isDigit = true) : isBlank c = false := by
  simp only [isBlank, Bool.or_eq_false_iff, beq_eq_false_iff_ne]
  refine ⟨⟨⟨?_, ?_⟩, ?_⟩, ?_⟩ <;> rintro rfl <;> cases digit

/-- A written number starts with a digit. -/
theorem exists_toDigits_eq_cons (value : Nat) :
    ∃ digit digits, Nat.toDigits 10 value = digit :: digits ∧ digit.isDigit = true := by
  obtain ⟨digit, digits, eq⟩ : ∃ digit digits, Nat.toDigits 10 value = digit :: digits :=
    List.exists_cons_of_ne_nil Nat.toDigits_ne_nil
  have isDigit : digit.isDigit = true :=
    Nat.isDigit_of_mem_toDigits (by decide) (by decide) (eq ▸ List.mem_cons_self)
  exact ⟨digit, digits, eq, isDigit⟩

theorem exists_writeNumber_eq_cons (value : Nat) (rest : List Char) :
    ∃ digit text, Value.writeNumber value rest = digit :: text ∧ digit.isDigit = true := by
  obtain ⟨digit, digits, eq, isDigit⟩ := exists_toDigits_eq_cons value
  unfold Value.writeNumber
  rw [eq]
  exact ⟨digit, digits ++ rest, rfl, isDigit⟩

/-- A whole number below the bound is read as it was written. -/
theorem readNatural_writeNumber {expected : String} {bound value : Nat} (below : value < bound)
    (small : value < UInt64.size) (ends : EndsNumber rest) :
    readNatural expected bound (Value.writeNumber value rest) = .ok (value, rest) := by
  have read := readNumber_writeNumber small ends
  obtain ⟨digit, text, eq, isDigit⟩ := exists_writeNumber_eq_cons value rest
  have noSign : digit ≠ '-' := by
    rintro rfl
    cases isDigit
  rw [eq] at read ⊢
  unfold readNatural
  simp only [skipBlank_cons (isBlank_of_isDigit isDigit)]
  rw [isDigit, if_pos rfl, read]
  simp [checkNatural, below]

end SearchSpace.Json
