import SearchSpace.Json.Value

/-!
# The texts of JSON values

A form is a relation between a text and what is left of it behind one thing of that form. Blanks,
strings, numbers, lists and objects are such forms, and so are all the ways to lay out a given
value: with blanks between the pieces and with escapes in the strings. Nothing here refers to a
reader.
-/

namespace SearchSpace.Json

/-- A form that the front of a text may have, as a relation to the text behind it. -/
abbrev Form := List Char → List Char → Prop

/-- The given characters. -/
def Word (word : List Char) : Form := fun text rest => text = word ++ rest

/-- Any number of characters of a kind. -/
inductive Many (kind : Char → Prop) : Form
  | none {text : List Char} : Many kind text text
  | more {c : Char} {text rest : List Char} : kind c → Many kind text rest →
      Many kind (c :: text) rest

/-- What may stand between any two pieces. -/
def Blanks : Form := Many fun c => c ∈ [' ', '\t', '\n', '\r']

/-! ## Strings -/

/-- The letters of the short escapes and the characters that they stand for. -/
def escapes : List (Char × Char) :=
  [('"', '"'), ('\\', '\\'), ('/', '/'), ('b', '\x08'), ('f', '\x0c'), ('n', '\n'), ('r', '\r'),
    ('t', '\t')]

/-- The digits in base sixteen in lower case. -/
def lowerDigits : List Char :=
  ['0', '1', '2', '3', '4', '5', '6', '7', '8', '9', 'a', 'b', 'c', 'd', 'e', 'f']

/-- The digits in base sixteen in upper case. -/
def upperDigits : List Char :=
  ['0', '1', '2', '3', '4', '5', '6', '7', '8', '9', 'A', 'B', 'C', 'D', 'E', 'F']

/-- The character is the digit of the value, in either case. -/
def HexDigit (value : Nat) (c : Char) : Prop :=
  lowerDigits[value]? = some c ∨ upperDigits[value]? = some c

/-- The escape of a unit of sixteen bits. -/
inductive Unit16 : Nat → Form
  | digits {a b c d : Nat} {first second third fourth : Char} {rest : List Char} :
      HexDigit a first → HexDigit b second → HexDigit c third → HexDigit d fourth →
      Unit16 (((a * 16 + b) * 16 + c) * 16 + d)
        ('\\' :: 'u' :: first :: second :: third :: fourth :: rest) rest

/-- A character that may stand in a string as it is. -/
def Plain (c : Char) : Prop := c ≠ '"' ∧ c ≠ '\\' ∧ ¬c < ' '

instance (c : Char) : Decidable (Plain c) := inferInstanceAs (Decidable (_ ∧ _))

/-- The ways to write the given characters in a string, up to the closing quote. -/
inductive Spells : List Char → Form
  | done {rest : List Char} : Spells [] ('"' :: rest) rest
  | plain {c : Char} {chars text rest : List Char} : Plain c → Spells chars text rest →
      Spells (c :: chars) (c :: text) rest
  | escape {letter c : Char} {chars text rest : List Char} : (letter, c) ∈ escapes →
      Spells chars text rest → Spells (c :: chars) ('\\' :: letter :: text) rest
  | unit {c : Char} {chars text behind rest : List Char} : Unit16 c.toNat text behind →
      Spells chars behind rest → Spells (c :: chars) text rest
  /-- Characters beyond the units of sixteen bits are escaped as two of them. -/
  | pair {c : Char} {chars text middle behind rest : List Char} : 0x10000 ≤ c.toNat →
      Unit16 (0xd800 + (c.toNat - 0x10000) / 0x400) text middle →
      Unit16 (0xdc00 + (c.toNat - 0x10000) % 0x400) middle behind →
      Spells chars behind rest → Spells (c :: chars) text rest

/-- A string behind its opening quote, which need not spell anything: escaped units are not asked
to make up characters. -/
inductive Quoted : Form
  | done {rest : List Char} : Quoted ('"' :: rest) rest
  | plain {c : Char} {text rest : List Char} : Plain c → Quoted text rest → Quoted (c :: text) rest
  | escape {letter c : Char} {text rest : List Char} : (letter, c) ∈ escapes →
      Quoted text rest → Quoted ('\\' :: letter :: text) rest
  | unit {unit : Nat} {text behind rest : List Char} : Unit16 unit text behind →
      Quoted behind rest → Quoted text rest

/-! ## Numbers -/

/-- Digits, of which there is one at least. -/
inductive Digits : Form
  | mk {c : Char} {text rest : List Char} : c.isDigit = true →
      Many (fun c => c.isDigit = true) text rest → Digits (c :: text) rest

/-- One of the given characters, or nothing. -/
inductive Perhaps (kinds : List Char) : Form
  | none {text : List Char} : Perhaps kinds text text
  | some {c : Char} {rest : List Char} : c ∈ kinds → Perhaps kinds (c :: rest) rest

/-- The digits before the point, which do not start with a zero unless it is the only one. -/
inductive Whole : Form
  | zero {rest : List Char} : Whole ('0' :: rest) rest
  | digits {c : Char} {text rest : List Char} : c ≠ '0' → Digits (c :: text) rest →
      Whole (c :: text) rest

/-- The point and the digits behind it, if any. -/
inductive Fraction : Form
  | none {text : List Char} : Fraction text text
  | some {text rest : List Char} : Digits text rest → Fraction ('.' :: text) rest

/-- The exponent, if any. -/
inductive Scale : Form
  | none {text : List Char} : Scale text text
  | some {mark : Char} {text behind rest : List Char} : mark ∈ ['e', 'E'] →
      Perhaps ['+', '-'] text behind → Digits behind rest → Scale (mark :: text) rest

/-- A number of any size. -/
inductive Numeral : Form
  | mk {text whole fraction scale rest : List Char} : Perhaps ['-'] text whole →
      Whole whole fraction → Fraction fraction scale → Scale scale rest → Numeral text rest

/-! ## Lists and objects -/

/-- Things of the given forms, parted by commas, up to the closing character. -/
inductive Row (closing : Char) : List Form → Form
  | last {form : Form} {text item behind rest : List Char} : Blanks text item → form item behind →
      Blanks behind (closing :: rest) → Row closing [form] text rest
  | more {form : Form} {forms : List Form} {text item behind others rest : List Char} :
      Blanks text item → form item behind → Blanks behind (',' :: others) →
      Row closing forms others rest → Row closing (form :: forms) text rest

/-- Nothing, or a row, between two characters. -/
inductive Enclosed (opening closing : Char) : List Form → Form
  | none {text rest : List Char} : Blanks text (closing :: rest) →
      Enclosed opening closing [] (opening :: text) rest
  | row {forms : List Form} {text rest : List Char} : Row closing forms text rest →
      Enclosed opening closing forms (opening :: text) rest

/-- An entry of an object, with the form that its key has behind the opening quote. -/
inductive Entry (key value : Form) : Form
  | mk {text named colon item rest : List Char} : key text named → Blanks named (':' :: colon) →
      Blanks colon item → value item rest → Entry key value ('"' :: text) rest

/-- A list of elements of the given forms. -/
abbrev Listed (elements : List Form) : Form := Enclosed '[' ']' elements

/-- An object with entries of the given forms. -/
abbrev Braced (entries : List Form) : Form := Enclosed '{' '}' entries

/-- A word, a number or a string. -/
inductive Scalar : Form
  | word {word text rest : List Char} :
      word ∈ [['n', 'u', 'l', 'l'], ['t', 'r', 'u', 'e'], ['f', 'a', 'l', 's', 'e']] →
      Word word text rest → Scalar text rest
  | numeral {text rest : List Char} : Numeral text rest → Scalar text rest
  | quoted {text rest : List Char} : Quoted text rest → Scalar ('"' :: text) rest

/-- A value in which at most so many lists and objects lie within one another. -/
def WellFormedTo : Nat → Form
  | 0 => Scalar
  | depth + 1 => fun text rest =>
    Scalar text rest ∨ (∃ length, Listed (List.replicate length (WellFormedTo depth)) text rest) ∨
      ∃ length, Braced (List.replicate length (Entry Quoted (WellFormedTo depth))) text rest

/-- Any value at all. -/
def WellFormed : Form := fun text rest => ∃ depth, WellFormedTo depth text rest

namespace Value

mutual

/-- The ways to lay out a value. -/
def Layout : Value → Form
  | .null => Word ['n', 'u', 'l', 'l']
  | .boolean true => Word ['t', 'r', 'u', 'e']
  | .boolean false => Word ['f', 'a', 'l', 's', 'e']
  | .number value => Word (Nat.toDigits 10 value)
  | .text value => fun text rest => ∃ behind, text = '"' :: behind ∧ Spells value.toList behind rest
  | .list elements => Listed (layoutsOfElements elements)
  | .object entries => Braced (layoutsOfEntries entries)

/-- The ways to lay out each of several values. -/
def layoutsOfElements : List Value → List Form
  | [] => []
  | element :: elements => Layout element :: layoutsOfElements elements

/-- The ways to lay out each of several entries. -/
def layoutsOfEntries : List (String × Value) → List Form
  | [] => []
  | (key, value) :: entries => Entry (Spells key.toList) (Layout value) :: layoutsOfEntries entries

end

end Value

end SearchSpace.Json
