import Mathlib.Data.List.Lex

/-!
# The order of strings is that of their bytes

Strings are compared character by character by code point. In UTF-8 a greater code point has a
greater code, and no code is the beginning of another, so comparing the bytes comes to the same.
-/

namespace SearchSpace.Text

/-- The bytes of a string in UTF-8. -/
def bytes (text : String) : List UInt8 := text.toUTF8.data.toList

theorem bytes_eq (text : String) : bytes text = text.toList.flatMap String.utf8EncodeChar := by
  show text.toByteArray.data.toList = _
  rw [← String.utf8Encode_toList, List.utf8Encode, List.toList_data_toByteArray]

/-- Bytes are compared as the numbers that they were made of. -/
theorem ofNat_cons_lt_iff {left right : Nat} (small : left < 256) (small' : right < 256)
    {lefts rights : List UInt8} : UInt8.ofNat left :: lefts < UInt8.ofNat right :: rights ↔
      left < right ∨ left = right ∧ lefts < rights := by
  rw [List.cons_lt_cons_iff, UInt8.lt_iff_toNat_lt, ← UInt8.toNat_inj, UInt8.toNat_ofNat',
    UInt8.toNat_ofNat', Nat.mod_eq_of_lt small, Nat.mod_eq_of_lt small']

/-- The code of a lesser character is less, whatever comes after either. -/
theorem utf8EncodeChar_append_lt {left right : Char} (less : left < right)
    (lefts rights : List UInt8) :
    String.utf8EncodeChar left ++ lefts < String.utf8EncodeChar right ++ rights := by
  have less : left.val.toNat < right.val.toNat := UInt32.lt_iff_toNat_lt.1 less
  have valid := right.valid
  have bound : right.val.toNat < 0x110000 := by
    rcases valid with below | ⟨_, below⟩
    · exact Nat.lt_trans below (by decide)
    · exact below
  unfold String.utf8EncodeChar
  dsimp only
  generalize left.val.toNat = low at *
  generalize right.val.toNat = high at *
  -- Each byte but the first holds one more digit to the base of 64.
  have second (value : Nat) : value / 4096 = value / 64 / 64 := by
    rw [Nat.div_div_eq_div_mul]
  have third (value : Nat) : value / 262144 = value / 64 / 64 / 64 := by
    rw [Nat.div_div_eq_div_mul, Nat.div_div_eq_div_mul]
  simp only [second, third]
  -- A longer code begins with a greater byte. Codes of one length are compared digit by digit.
  split_ifs <;> try omega
  all_goals
    simp (disch := omega) only [List.cons_append, List.nil_append, ofNat_cons_lt_iff]
    omega

theorem flatMap_utf8EncodeChar_lt {lefts rights : List Char} (less : lefts < rights) :
    lefts.flatMap String.utf8EncodeChar < rights.flatMap String.utf8EncodeChar := by
  induction lefts generalizing rights with
  | nil =>
    cases rights with
    | nil => exact absurd less (List.lt_irrefl [])
    | cons right rights =>
      obtain ⟨first, more, code⟩ := List.exists_cons_of_ne_nil (@String.utf8EncodeChar_ne_nil right)
      rw [List.flatMap_nil, List.flatMap_cons, code]
      exact List.nil_lt_cons _ _
  | cons left lefts ih =>
    cases rights with
    | nil => exact absurd less (List.not_lt_nil _)
    | cons right rights =>
      rw [List.flatMap_cons, List.flatMap_cons]
      rcases List.cons_lt_cons_iff.1 less with first | ⟨rfl, tails⟩
      · exact utf8EncodeChar_append_lt first _ _
      · exact List.append_left_lt (ih tails)

theorem bytes_lt_bytes {left right : String} (less : left < right) : bytes left < bytes right := by
  rw [bytes_eq, bytes_eq]
  exact flatMap_utf8EncodeChar_lt (String.lt_iff.1 less)

/-- Strings are in the order of their bytes. -/
theorem bytes_lt_iff {left right : String} : bytes left < bytes right ↔ left < right := by
  refine ⟨fun less => ?_, bytes_lt_bytes⟩
  by_contra notLess
  rcases eq_or_ne left right with rfl | differ
  · exact List.lt_irrefl _ less
  · have greater : right < left := Std.lt_of_le_of_ne (String.not_lt.1 notLess) differ.symm
    exact List.lt_asymm less (bytes_lt_bytes greater)

end SearchSpace.Text
