import SearchSpace.Json.Skip

/-!
# Reading typed data

Readers for the forms in which data is written: numbers, strings, lists, objects with known fields,
and variants. A reader expects a value of its own kind and otherwise says what it found. At most a
certain number of lists and objects may lie within one another; a reader is told how many may still
be entered. Lists and objects are read in steps, each of which takes at least one character, so the
length of the text is a bound for them.
-/

namespace SearchSpace.Json

/-- The reason why the text, from its first character that is not blank on, is not of the expected
kind. A word, a number or a string is read to its end first and may itself be wrong. -/
def mismatch (expected : String) (text : List Char) : ReadError :=
  match text with
  | 'n' :: rest =>
    match expectWord ['u', 'l', 'l'] rest with
    | .ok _ => .wrongType .null expected
    | .error reason => reason
  | 't' :: rest =>
    match expectWord ['r', 'u', 'e'] rest with
    | .ok _ => .wrongType (.boolean true) expected
    | .error reason => reason
  | 'f' :: rest =>
    match expectWord ['a', 'l', 's', 'e'] rest with
    | .ok _ => .wrongType (.boolean false) expected
    | .error reason => reason
  | '-' :: rest =>
    match readNumber true rest with
    | .ok (number, _) => .wrongType number.found expected
    | .error reason => reason
  | '"' :: rest =>
    match readString rest with
    | .ok (value, _) => .wrongType (.text value) expected
    | .error reason => reason
  | '[' :: _ => .wrongType .sequence expected
  | '{' :: _ => .wrongType .map expected
  | [] => .endInValue
  | c :: rest =>
    if c.isDigit then
      match readNumber false (c :: rest) with
      | .ok (number, _) => .wrongType number.found expected
      | .error reason => reason
    else .expectedValue

/-- Accepts a whole number below `bound`. -/
def checkNatural (expected : String) (bound : Nat) :
    Except ReadError (Number × List Char) → Except ReadError (Nat × List Char)
  | .error reason => .error reason
  | .ok (.float negative magnitude, _) =>
    .error (.wrongType (Number.float negative magnitude).found expected)
  | .ok (.integer value, rest) =>
    if 0 ≤ value && value < bound then .ok (value.toNat, rest)
    else .error (.wrongValue (.integer value) expected)

/-- Reads a whole number below `bound`. -/
def readNatural (expected : String) (bound : Nat) : Reader Nat := fun text =>
  match skipBlank text with
  | '-' :: rest => checkNatural expected bound (readNumber true rest)
  | [] => .error .endInValue
  | c :: rest =>
    if c.isDigit then checkNatural expected bound (readNumber false (c :: rest))
    else .error (mismatch expected (c :: rest))

/-- Reads a string. -/
def readText (expected : String) : Reader String := fun text =>
  match skipBlank text with
  | '"' :: rest => readString rest
  | rest => .error (mismatch expected rest)

/-- Reads the value `null`. -/
def readNull (expected : String) : Reader Unit := fun text =>
  match skipBlank text with
  | 'n' :: rest => do return ((), ← expectWord ['u', 'l', 'l'] rest)
  | rest => .error (mismatch expected rest)

/-- Reads a value or, in its place, `null`. -/
def readOptional {α : Type} (read : Reader α) : Reader (Option α) := fun text =>
  match skipBlank text with
  | 'n' :: rest => do return (none, ← expectWord ['u', 'l', 'l'] rest)
  | rest => do
    let (value, rest) ← read rest
    return (some value, rest)

/-! ## Lists -/

/-- Goes to the next element of a list. The place is the first element of the list or behind one;
the answer is `none` at the closing bracket, which is not passed. -/
def nextElement? (isFirst : Bool) (text : List Char) : Except ReadError (Option (List Char)) :=
  match skipBlank text with
  | [] => .error .endInList
  | ']' :: _ => .ok none
  | c :: rest =>
    if isFirst then .ok (some (c :: rest))
    else if c = ',' then
      match skipBlank rest with
      | [] => .error .endInValue
      | ']' :: _ => .error .trailingComma
      | rest => .ok (some rest)
    else .error .expectedCommaOrBracket

/-- Passes the closing bracket of a list of which no more elements are wanted. -/
def endList (text : List Char) : Except ReadError (List Char) :=
  match skipBlank text with
  | [] => .error .endInList
  | ']' :: rest => .ok rest
  | ',' :: rest =>
    match skipBlank rest with
    | ']' :: _ => .error .trailingComma
    | _ => .error .trailingCharacters
  | _ => .error .trailingCharacters

/-- Reads the elements of a list whose opening bracket has been passed. -/
def readElements {α : Type} (element : Reader α) : Nat → Bool → Reader (List α)
  | 0, _, _ => .error .endInList
  | steps + 1, isFirst, text => do
    match ← nextElement? isFirst text with
    | none => return ([], ← endList text)
    | some rest =>
      let (value, rest) ← element rest
      let (values, rest) ← readElements element steps false rest
      return (value :: values, rest)

/-- Reads a list, given a reader for its elements, or none if no list may be entered any more. -/
def readList {α : Type} (steps : Nat) (element? : Option (Reader α)) : Reader (List α) :=
  fun text =>
    match skipBlank text with
    | '[' :: rest =>
      match element? with
      | none => .error .nestedTooDeep
      | some element => readElements element steps true rest
    | rest => .error (mismatch "a sequence" rest)

/-- Reads the next element of a list of known length. Without it the list is too short: it has only
the elements counted in `length`. -/
def readElement {α : Type} (expected : String) (length : Nat) (element : Reader α) : Reader α :=
  fun text => do
    match ← nextElement? (length == 0) text with
    | none => .error (.wrongLength length expected)
    | some rest => element rest

/-! ## Objects -/

/-- Goes behind the opening quote of the next key of an object; the answer is `none` at the closing
brace. -/
def nextKey? (isFirst : Bool) (text : List Char) : Except ReadError (Option (List Char)) :=
  match skipBlank text with
  | [] => .error .endInObject
  | '}' :: _ => .ok none
  | c :: rest =>
    if isFirst then if c = '"' then .ok (some rest) else .error .keyNotString
    else if c = ',' then
      match skipBlank rest with
      | [] => .error .endInValue
      | '"' :: rest => .ok (some rest)
      | '}' :: _ => .error .trailingComma
      | _ => .error .keyNotString
    else .error .expectedCommaOrBrace

/-- Passes the colon after a key. -/
def expectColon (text : List Char) : Except ReadError (List Char) :=
  match skipBlank text with
  | [] => .error .endInObject
  | ':' :: rest => .ok rest
  | _ => .error .expectedColon

/-- Reads the entries of an object whose opening brace has been passed. What is known from earlier
entries is handed on from each to the next, by a reader that starts behind the key. -/
def readEntries {α : Type} (entry : String → α → Reader α) : Nat → Bool → α → Reader α
  | 0, _, _, _ => .error .endInObject
  | steps + 1, isFirst, known, text => do
    match ← nextKey? isFirst text with
    | none => return (known, (skipBlank text).drop 1)
    | some rest =>
      let (key, rest) ← readString rest
      let (known, rest) ← entry key known rest
      readEntries entry steps false known rest

/-- Reads the value of a field that may occur only once. -/
def readField {α : Type} (name : String) (known : Option α) (read : Reader α) : Reader α :=
  fun text =>
    if known.isSome then .error (.duplicateField name)
    else do read (← expectColon text)

/-- Skips the value of a field that nobody knows. -/
def skipField {α : Type} (steps : Nat) (known : α) : Reader α := fun text => do
  return (known, ← skipValue steps (← expectColon text))

/-- The value of a field, which must not be missing. -/
def requireField {α : Type} (name : String) : Option α → Except ReadError α
  | some value => .ok value
  | none => .error (.missingField name)

/-- Reads data that is written as an object with known fields, or as a list of their values. The
readers start behind the brace and behind the bracket; both are given how many more lists and
objects may be entered. -/
def readStruct {α : Type} (expected : String) (nesting : Nat) (fields : Nat → Reader α)
    (elements : Nat → Reader α) : Reader α := fun text =>
  match skipBlank text, nesting with
  | '{' :: _, 0 | '[' :: _, 0 => .error .nestedTooDeep
  | '{' :: rest, nesting + 1 => fields nesting rest
  | '[' :: rest, nesting + 1 => do
    let (value, rest) ← elements nesting rest
    return (value, ← endList rest)
  | rest, _ => .error (mismatch expected rest)

/-! ## Variants -/

/-- Reads the name of a variant, one of those that are known. Its opening quote has been passed. -/
def readVariantName (known : List String) : Reader String := fun text => do
  let (name, rest) ← readString text
  if known.contains name then return (name, rest) else .error (.unknownVariant name known)

/-- Goes behind the opening quote of the name of a variant, whose opening brace has been passed. -/
def startVariant (text : List Char) : Except ReadError (List Char) :=
  match skipBlank text with
  | [] => .error .endInObject
  | '"' :: rest => .ok rest
  | '}' :: _ => .error .expectedValue
  | _ => .error .keyNotString

/-- Passes the closing brace of a variant, which has no other entries. -/
def endVariant (text : List Char) : Except ReadError (List Char) :=
  match skipBlank text with
  | [] => .error .endInObject
  | '}' :: rest => .ok rest
  | _ => .error .expectedValue

/-- Reads a variant: an object with the name as its only key and the content as its value, or the
mere name. The reader of the content starts behind the colon, and is none if no object may be
entered any more. -/
def readVariant {α : Type} (known : List String) (content? : Option (String → Reader α))
    (mere : String → Except ReadError α) : Reader α := fun text =>
  match skipBlank text with
  | [] => .error .endInValue
  | '{' :: rest =>
    match content? with
    | none => .error .nestedTooDeep
    | some content => do
      let (name, rest) ← readVariantName known (← startVariant rest)
      let (value, rest) ← content name (← expectColon rest)
      return (value, ← endVariant rest)
  | '"' :: rest => do
    let (name, rest) ← readVariantName known rest
    return (← mere name, rest)
  | _ => .error .expectedValue

/-! ## Documents -/

/-- The number of lists and objects that may lie within one another. -/
def maxNesting : Nat := 127

/-- Reads a whole document. The reader is given a number of steps above the length of the text and
the number of lists and objects that may be entered. -/
def readDocument {α : Type} (read : Nat → Nat → Reader α) (document : String) :
    Except ReadError α := do
  let text := document.toList
  let (value, rest) ← read (text.length + 2) maxNesting text
  match skipBlank rest with
  | [] => return value
  | _ => .error .trailingCharacters

end SearchSpace.Json
