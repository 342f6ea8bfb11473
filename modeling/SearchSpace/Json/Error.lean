import SearchSpace.Text.Escaped

/-!
# Errors in JSON documents

A document is refused because it ends too early, because it is not JSON, or because it is JSON but
does not describe the expected data. Each cause is a constructor; `ReadError.category` and
`ReadError.message` say what a user sees of it.
-/

namespace SearchSpace.Json

/-- What stands in a document where something else was expected. -/
inductive Found where
  | null
  | boolean (value : Bool)
  | integer (value : Int)
  /-- A number that is not treated as whole, as it is written out. -/
  | float (written : String)
  | text (value : String)
  | sequence
  | map
  /-- The name of a variant without its content. -/
  | unitVariant
deriving DecidableEq, Repr

/-- The reasons for which a document is refused. -/
inductive ReadError where
  /-- The document ends where a value is expected. -/
  | endInValue
  | endInObject
  | endInList
  | endInString
  /-- What follows is no value, or nothing may follow. -/
  | expectedValue
  /-- A word starts like a literal and goes on differently. -/
  | expectedWord
  /-- A key is not followed by a colon. -/
  | expectedColon
  /-- The entries of an object are not separated. -/
  | expectedCommaOrBrace
  /-- The elements of a list are not separated. -/
  | expectedCommaOrBracket
  /-- A comma is followed by the end of a list or an object. -/
  | trailingComma
  /-- More follows where the document, or a list of known length, has to end. -/
  | trailingCharacters
  /-- An entry of an object does not start with a string. -/
  | keyNotString
  /-- The digits of a number are not as they have to be. -/
  | invalidNumber
  | numberOutOfRange
  /-- A backslash is followed by something that is no escape. -/
  | invalidEscape
  /-- The first half of an escaped pair is not followed by an escape. -/
  | endOfHexEscape
  /-- Half of an escaped pair stands alone. -/
  | loneSurrogate
  /-- A control character stands in a string. -/
  | controlCharacter
  /-- Too many lists and objects lie within one another. -/
  | nestedTooDeep
  /-- A value of another type is expected. -/
  | wrongType (found : Found) (expected : String)
  /-- A value of the right type is not allowed. -/
  | wrongValue (found : Found) (expected : String)
  | wrongLength (length : Nat) (expected : String)
  | unknownVariant (name : String) (known : List String)
  | missingField (name : String)
  | duplicateField (name : String)
deriving DecidableEq, Repr

/-- The three kinds of reasons. -/
inductive Category where
  | endOfDocument
  /-- The document is not JSON. -/
  | format
  /-- The document does not describe the expected data. -/
  | data
deriving DecidableEq, Repr

/-- What was found, in words. -/
def Found.phrase : Found → String
  | .null => "null"
  | .boolean value => "boolean `" ++ (if value then "true" else "false") ++ "`"
  | .integer value => "integer `" ++ toString value ++ "`"
  | .float written => "floating point `" ++ written ++ "`"
  | .text value => "string " ++ Text.escaped value
  | .sequence => "sequence"
  | .map => "map"
  | .unitVariant => "unit variant"

/-- A choice between names, in words. -/
def choice : List String → String
  | [first, second] => "`" ++ first ++ "` or `" ++ second ++ "`"
  | names => "one of " ++ String.intercalate ", " (names.map fun name => "`" ++ name ++ "`")

namespace ReadError

/-- The kind of reason. -/
def category : ReadError → Category
  | .endInValue | .endInObject | .endInList | .endInString => .endOfDocument
  | .wrongType .. | .wrongValue .. | .wrongLength .. | .unknownVariant .. | .missingField ..
  | .duplicateField .. => .data
  | _ => .format

/-- The reason in words. -/
def message : ReadError → String
  | .endInValue => "EOF while parsing a value"
  | .endInObject => "EOF while parsing an object"
  | .endInList => "EOF while parsing a list"
  | .endInString => "EOF while parsing a string"
  | .expectedValue => "expected value"
  | .expectedWord => "expected ident"
  | .expectedColon => "expected `:`"
  | .expectedCommaOrBrace => "expected `,` or `\x7d`"
  | .expectedCommaOrBracket => "expected `,` or `]`"
  | .trailingComma => "trailing comma"
  | .trailingCharacters => "trailing characters"
  | .keyNotString => "key must be a string"
  | .invalidNumber => "invalid number"
  | .numberOutOfRange => "number out of range"
  | .invalidEscape => "invalid escape"
  | .endOfHexEscape => "unexpected end of hex escape"
  | .loneSurrogate => "lone leading surrogate in hex escape"
  | .controlCharacter =>
    "control character (\\u0000-\\u001F) found while parsing a string"
  | .nestedTooDeep => "recursion limit exceeded"
  | .wrongType found expected => "invalid type: " ++ found.phrase ++ ", expected " ++ expected
  | .wrongValue found expected => "invalid value: " ++ found.phrase ++ ", expected " ++ expected
  | .wrongLength length expected =>
    "invalid length " ++ toString length ++ ", expected " ++ expected
  | .unknownVariant name known =>
    "unknown variant `" ++ name ++ "`, expected " ++ choice known
  | .missingField name => "missing field `" ++ name ++ "`"
  | .duplicateField name => "duplicate field `" ++ name ++ "`"

end ReadError

end SearchSpace.Json
