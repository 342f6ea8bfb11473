import SearchSpace.Binary64
import SearchSpace.Decimal
import SearchSpace.Json.Error

/-!
# Words, numbers and strings of JSON

The pieces of a document that hold no other values. Each reader takes characters off the front of
the text and returns what is left. Values that are not wanted are skipped by readers of their own,
which check less: of a number only its form, and of an escaped character only that it has four
digits.
-/

namespace SearchSpace.Json

/-- Reads something off the front of a text and returns what is left. -/
abbrev Reader (α : Type) := List Char → Except ReadError (α × List Char)

/-- Whether the character may stand between any two pieces of a document. -/
def isBlank (c : Char) : Bool := c == ' ' || c == '\n' || c == '\t' || c == '\r'

/-- The text from the first character on that is not blank. -/
def skipBlank (text : List Char) : List Char := text.dropWhile isBlank

/-- The text after the given word. -/
def expectWord : List Char → List Char → Except ReadError (List Char)
  | [], text => .ok text
  | _ :: _, [] => .error .endInValue
  | expected :: word, c :: text =>
    if c = expected then expectWord word text else .error .expectedWord

/-! ## Strings -/

/-- The value of a digit in base sixteen. -/
def hexValue? (c : Char) : Option Nat :=
  if '0' ≤ c && c ≤ '9' then some (c.toNat - '0'.toNat)
  else if 'a' ≤ c && c ≤ 'f' then some (c.toNat - 'a'.toNat + 10)
  else if 'A' ≤ c && c ≤ 'F' then some (c.toNat - 'A'.toNat + 10)
  else none

/-- The number with four digits in base sixteen. -/
def fourHex? (a b c d : Char) : Option Nat := do
  return (((← hexValue? a) * 16 + (← hexValue? b)) * 16 + (← hexValue? c)) * 16 + (← hexValue? d)

/-- The reason why fewer than four characters cannot be the digits of an escape: they are no digits,
or they are the end of the document if they have fewer than four bytes. -/
def shortEscape (text : List Char) : ReadError :=
  if (String.ofList text).utf8ByteSize < 4 then .endInString else .invalidEscape

/-- The character that a letter after a backslash stands for. -/
def escapedChar? : Char → Option Char
  | '"' => some '"'
  | '\\' => some '\\'
  | '/' => some '/'
  | 'b' => some '\x08'
  | 'f' => some '\x0c'
  | 'n' => some '\n'
  | 'r' => some '\r'
  | 't' => some '\t'
  | _ => none

/-- Whether the unit is the first half of a pair. -/
def isLeading (unit : Nat) : Bool := 0xd800 ≤ unit && unit ≤ 0xdbff

/-- Whether the unit is the second half of a pair. -/
def isTrailing (unit : Nat) : Bool := 0xdc00 ≤ unit && unit ≤ 0xdfff

/-- The character that a pair stands for. -/
def pairedChar (leading trailing : Nat) : Char :=
  Char.ofNat ((leading - 0xd800) * 0x400 + (trailing - 0xdc00) + 0x10000)

/-- Puts a character in front of the string that was read. -/
def consChar (c : Char) (read : Except ReadError (List Char × List Char)) :
    Except ReadError (List Char × List Char) :=
  read.map fun (chars, rest) => (c :: chars, rest)

/-- Reads a string whose opening quote has been passed. An escaped half of a pair has to be followed
by the other half. -/
def readChars : Reader (List Char)
  | [] => .error .endInString
  | '"' :: rest => .ok ([], rest)
  | '\\' :: 'u' :: a :: b :: c :: d :: rest =>
    match fourHex? a b c d with
    | none => .error .invalidEscape
    | some unit =>
      if isTrailing unit then .error .loneSurrogate
      else if isLeading unit then
        match rest with
        | '\\' :: 'u' :: a :: b :: c :: d :: rest =>
          match fourHex? a b c d with
          | none => .error .invalidEscape
          | some second =>
            if isTrailing second then consChar (pairedChar unit second) (readChars rest)
            else .error .loneSurrogate
        | '\\' :: 'u' :: rest => .error (shortEscape rest)
        | [] | ['\\'] => .error .endInString
        | _ => .error .endOfHexEscape
      else consChar (Char.ofNat unit) (readChars rest)
  | '\\' :: 'u' :: rest => .error (shortEscape rest)
  | ['\\'] => .error .endInString
  | '\\' :: letter :: rest =>
    match escapedChar? letter with
    | some c => consChar c (readChars rest)
    | none => .error .invalidEscape
  | c :: rest => if c < ' ' then .error .controlCharacter else consChar c (readChars rest)

/-- Reads a string whose opening quote has been passed. -/
def readString (text : List Char) : Except ReadError (String × List Char) :=
  (readChars text).map fun (chars, rest) => (String.ofList chars, rest)

/-- Skips a string whose opening quote has been passed. -/
def skipString : List Char → Except ReadError (List Char)
  | [] => .error .endInString
  | '"' :: rest => .ok rest
  | '\\' :: 'u' :: a :: b :: c :: d :: rest =>
    if (fourHex? a b c d).isSome then skipString rest else .error .invalidEscape
  | '\\' :: 'u' :: rest => .error (shortEscape rest)
  | ['\\'] => .error .endInString
  | '\\' :: letter :: rest =>
    if (escapedChar? letter).isSome then skipString rest else .error .invalidEscape
  | c :: rest => if c < ' ' then .error .controlCharacter else skipString rest

/-! ## Numbers -/

/-- A number of a document. -/
inductive Number where
  /-- A whole number, from `-2 ^ 63` to `2 ^ 64 - 1` and not written as minus zero. -/
  | integer (value : Int)
  /-- Any other number: its sign and its magnitude in binary floating point. -/
  | float (negative : Bool) (magnitude : Binary64)
deriving DecidableEq, Repr

/-- The number as it is named where something else was expected. -/
def Number.found : Number → Found
  | .integer value => .integer value
  | .float negative magnitude => .float ((if negative then "-" else "") ++ magnitude.text)

/-- The value of a decimal digit. -/
def digitValue (c : Char) : Nat := c.toNat - '0'.toNat

/-- Whether the text starts with a digit. -/
def startsWithDigit : List Char → Bool
  | c :: _ => c.isDigit
  | [] => false

/-- Appends digits to a significand for as long as it stays below `2 ^ 64`. Returns it with the
number of digits appended and the text that is left, which may still start with a digit. -/
def appendDigits (significand : Nat) : List Char → Nat × Nat × List Char
  | [] => (significand, 0, [])
  | c :: rest =>
    if c.isDigit && significand * 10 + digitValue c < UInt64.size then
      let (significand, count, rest) := appendDigits (significand * 10 + digitValue c) rest
      (significand, count + 1, rest)
    else (significand, 0, c :: rest)

/-- The number `significand * 10 ^ power` in floating point. -/
def finishFloat (negative : Bool) (significand : Nat) (power : Int) (rest : List Char) :
    Except ReadError (Number × List Char) :=
  match (Binary64.ofNat? significand).bind (·.scale? power) with
  | some magnitude => .ok (.float negative magnitude, rest)
  | none => .error .numberOutOfRange

/-- Takes the digits of an exponent as long as it stays below `2 ^ 31`; `none` if it does not. -/
def exponentDigits (exponent : Nat) : List Char → Option Nat × List Char
  | [] => (some exponent, [])
  | c :: rest =>
    if c.isDigit then
      if exponent * 10 + digitValue c < 1 <<< 31 then
        exponentDigits (exponent * 10 + digitValue c) rest
      else (none, rest)
    else (some exponent, c :: rest)

/-- Reads the digits of an exponent, of which there has to be one. An exponent that is too large
makes zero out of a number that it makes smaller, and leaves zero as it is. -/
def readExponentDigits (negative : Bool) (significand : Nat) (power : Int) (sign : Int) :
    Reader Number
  | [] => .error .endInValue
  | c :: rest =>
    if !c.isDigit then .error .invalidNumber
    else
      match exponentDigits (digitValue c) rest with
      | (some exponent, rest) => finishFloat negative significand (power + sign * exponent) rest
      | (none, rest) =>
        if significand != 0 && 0 < sign then .error .numberOutOfRange
        else .ok (.float negative .zero, rest.dropWhile Char.isDigit)

/-- Reads an exponent, whose mark has been passed, with its sign. -/
def readExponent (negative : Bool) (significand : Nat) (power : Int) : Reader Number
  | '+' :: rest => readExponentDigits negative significand power 1 rest
  | '-' :: rest => readExponentDigits negative significand power (-1) rest
  | text => readExponentDigits negative significand power 1 text

/-- Reads an exponent if there is one. -/
def readScale (negative : Bool) (significand : Nat) (power : Int) : Reader Number
  | 'e' :: rest | 'E' :: rest => readExponent negative significand power rest
  | text => finishFloat negative significand power text

/-- Reads the digits after the point. Those that do not fit the significand are dropped. -/
def readFraction (negative : Bool) (significand : Nat) (power : Int) (text : List Char) :
    Except ReadError (Number × List Char) :=
  let (significand, count, rest) := appendDigits significand text
  if startsWithDigit rest then
    readScale negative significand (power - count) (rest.dropWhile Char.isDigit)
  else if count = 0 then
    .error (if rest.isEmpty then .endInValue else .invalidNumber)
  else readScale negative significand (power - count) rest

/-- A whole number. Zero with a minus sign and numbers outside the range of whole numbers are in
floating point. -/
def wholeNumber (negative : Bool) (significand : Nat) (rest : List Char) :
    Except ReadError (Number × List Char) :=
  if !negative then .ok (.integer significand, rest)
  else if significand = 0 || 1 <<< 63 < significand then finishFloat true significand 0 rest
  else .ok (.integer (-significand), rest)

/-- Goes on after the digits before the point. -/
def readAfterWhole (negative : Bool) (significand : Nat) : Reader Number
  | '.' :: rest => readFraction negative significand 0 rest
  | 'e' :: rest | 'E' :: rest => readExponent negative significand 0 rest
  | text => wholeNumber negative significand text

/-- Reads a number whose minus sign, if it has one, has been passed. Digits before the point that do
not fit the significand count as powers of ten. -/
def readNumber (negative : Bool) : Reader Number
  | [] => .error .endInValue
  | '0' :: rest =>
    if startsWithDigit rest then .error .invalidNumber else readAfterWhole negative 0 rest
  | c :: rest =>
    if !c.isDigit then .error .invalidNumber
    else
      let (significand, _, rest) := appendDigits (digitValue c) rest
      if startsWithDigit rest then
        let power := (rest.takeWhile Char.isDigit).length
        match rest.dropWhile Char.isDigit with
        | '.' :: rest => readFraction negative significand power rest
        | rest => readScale negative significand power rest
      else readAfterWhole negative significand rest

/-- Skips the digits of an exponent, of which there has to be one. -/
def skipExponentDigits (text : List Char) : Except ReadError (List Char) :=
  if startsWithDigit text then .ok (text.dropWhile Char.isDigit) else .error .invalidNumber

/-- Skips an exponent if there is one. -/
def skipScale : List Char → Except ReadError (List Char)
  | 'e' :: '+' :: rest | 'e' :: '-' :: rest | 'E' :: '+' :: rest | 'E' :: '-' :: rest
  | 'e' :: rest | 'E' :: rest => skipExponentDigits rest
  | text => .ok text

/-- Skips what follows the digits before the point. -/
def skipAfterWhole : List Char → Except ReadError (List Char)
  | '.' :: rest =>
    if startsWithDigit rest then skipScale (rest.dropWhile Char.isDigit)
    else .error .invalidNumber
  | text => skipScale text

/-- Skips a number whose minus sign, if it has one, has been passed. -/
def skipNumber : List Char → Except ReadError (List Char)
  | '0' :: rest => if startsWithDigit rest then .error .invalidNumber else skipAfterWhole rest
  | text =>
    if startsWithDigit text then skipAfterWhole (text.dropWhile Char.isDigit)
    else .error .invalidNumber

end SearchSpace.Json
