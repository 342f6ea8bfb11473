/-!
# Writing JSON

The values that are written, in a compact form without blanks and in a form with one entry a line.
A writer puts a value in front of the text that follows it.
-/

namespace SearchSpace.Json

/-- A value to be written. -/
inductive Value where
  | null
  | boolean (value : Bool)
  | number (value : Nat)
  | text (value : String)
  | list (elements : List Value)
  /-- An object, its entries in the order in which they are written. -/
  | object (entries : List (String × Value))
deriving Repr, Inhabited

namespace Value

/-- A digit in base sixteen, in lower case. -/
def hexDigit (value : Nat) : Char := Nat.digitChar value

/-- A character within a string. Quotes, backslashes and controls are escaped. -/
def writeChar (c : Char) (rest : List Char) : List Char :=
  match c with
  | '"' => '\\' :: '"' :: rest
  | '\\' => '\\' :: '\\' :: rest
  | '\x08' => '\\' :: 'b' :: rest
  | '\t' => '\\' :: 't' :: rest
  | '\n' => '\\' :: 'n' :: rest
  | '\x0c' => '\\' :: 'f' :: rest
  | '\r' => '\\' :: 'r' :: rest
  | c =>
    if c < ' ' then
      '\\' :: 'u' :: '0' :: '0' :: hexDigit (c.toNat / 16) :: hexDigit (c.toNat % 16) :: rest
    else c :: rest

/-- A string in quotes. -/
def writeString (value : String) (rest : List Char) : List Char :=
  '"' :: value.toList.foldr writeChar ('"' :: rest)

/-- A natural number in base ten. -/
def writeNumber (value : Nat) (rest : List Char) : List Char := Nat.toDigits 10 value ++ rest

/-- A truth value. -/
def writeBoolean (value : Bool) (rest : List Char) : List Char :=
  if value then 't' :: 'r' :: 'u' :: 'e' :: rest else 'f' :: 'a' :: 'l' :: 's' :: 'e' :: rest

/-- The value `null`. -/
def writeNull (rest : List Char) : List Char := 'n' :: 'u' :: 'l' :: 'l' :: rest

mutual

/-- A value without blanks. -/
def write : Value → List Char → List Char
  | .null, rest => writeNull rest
  | .boolean value, rest => writeBoolean value rest
  | .number value, rest => writeNumber value rest
  | .text value, rest => writeString value rest
  | .list [], rest => '[' :: ']' :: rest
  | .list (element :: elements), rest => '[' :: write element (writeElements elements rest)
  | .object [], rest => '{' :: '}' :: rest
  | .object ((key, value) :: entries), rest =>
    '{' :: writeString key (':' :: write value (writeEntries entries rest))

/-- The elements after the first one, and the end of the list. -/
def writeElements : List Value → List Char → List Char
  | [], rest => ']' :: rest
  | element :: elements, rest => ',' :: write element (writeElements elements rest)

/-- The entries after the first one, and the end of the object. -/
def writeEntries : List (String × Value) → List Char → List Char
  | [], rest => '}' :: rest
  | (key, value) :: entries, rest =>
    ',' :: writeString key (':' :: write value (writeEntries entries rest))

end

/-- A new line, indented by two blanks for each level. -/
def newLine (level : Nat) (rest : List Char) : List Char :=
  '\n' :: (List.replicate (2 * level) ' ' ++ rest)

mutual

/-- A value with one element or entry a line, within the given number of lists and objects. -/
def writeLines (level : Nat) : Value → List Char → List Char
  | .null, rest => writeNull rest
  | .boolean value, rest => writeBoolean value rest
  | .number value, rest => writeNumber value rest
  | .text value, rest => writeString value rest
  | .list [], rest => '[' :: ']' :: rest
  | .list (element :: elements), rest =>
    '[' :: newLine (level + 1)
      (writeLines (level + 1) element (writeElementLines level elements rest))
  | .object [], rest => '{' :: '}' :: rest
  | .object ((key, value) :: entries), rest =>
    '{' :: newLine (level + 1) (writeString key
      (':' :: ' ' :: writeLines (level + 1) value (writeEntryLines level entries rest)))

/-- The elements after the first one, and the end of the list. -/
def writeElementLines (level : Nat) : List Value → List Char → List Char
  | [], rest => newLine level (']' :: rest)
  | element :: elements, rest =>
    ',' :: newLine (level + 1)
      (writeLines (level + 1) element (writeElementLines level elements rest))

/-- The entries after the first one, and the end of the object. -/
def writeEntryLines (level : Nat) : List (String × Value) → List Char → List Char
  | [], rest => newLine level ('}' :: rest)
  | (key, value) :: entries, rest =>
    ',' :: newLine (level + 1) (writeString key
      (':' :: ' ' :: writeLines (level + 1) value (writeEntryLines level entries rest)))

end

/-- The value as a text without blanks. -/
def compact (value : Value) : String := String.ofList (write value [])

/-- The value as a text with one element or entry a line. -/
def pretty (value : Value) : String := String.ofList (writeLines 0 value [])

end Value

end SearchSpace.Json
