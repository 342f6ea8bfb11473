import SearchSpace.Json.Lexeme

/-!
# Skipping values

A value that nobody wants is passed over whatever it holds, and however deep it is nested: the lists
and objects around the current place are kept in a list. A step takes at least one character, except
for the last one, so a number of steps above the length of the text is never used up.
-/

namespace SearchSpace.Json

/-- What encloses the current place. -/
inductive Enclosing where
  | list
  | object
deriving DecidableEq, Repr

/-- What has to come next. -/
inductive Awaited where
  | value
  /-- The key of an entry, and its value after that. -/
  | key
  /-- A comma or the end of what encloses the place. -/
  | separator
deriving DecidableEq, Repr

/-- Skips what is awaited and all that follows it within the enclosing lists and objects. -/
def skip : Nat → Awaited → List Enclosing → List Char → Except ReadError (List Char)
  | 0, _, _, _ => .error .endInValue
  | steps + 1, .value, enclosing, text =>
    match skipBlank text with
    | 'n' :: rest => do skip steps .separator enclosing (← expectWord ['u', 'l', 'l'] rest)
    | 't' :: rest => do skip steps .separator enclosing (← expectWord ['r', 'u', 'e'] rest)
    | 'f' :: rest => do skip steps .separator enclosing (← expectWord ['a', 'l', 's', 'e'] rest)
    | '"' :: rest => do skip steps .separator enclosing (← skipString rest)
    | '-' :: rest => do skip steps .separator enclosing (← skipNumber rest)
    | '[' :: rest =>
      match skipBlank rest with
      | [] => .error .endInList
      | ']' :: rest => skip steps .separator enclosing rest
      | rest => skip steps .value (.list :: enclosing) rest
    | '{' :: rest =>
      match skipBlank rest with
      | [] => .error .endInObject
      | '}' :: rest => skip steps .separator enclosing rest
      | rest => skip steps .key (.object :: enclosing) rest
    | [] => .error .endInValue
    | c :: rest =>
      if c.isDigit then do skip steps .separator enclosing (← skipNumber (c :: rest))
      else .error .expectedValue
  | steps + 1, .key, enclosing, text =>
    match skipBlank text with
    | [] => .error .endInObject
    | '"' :: rest => do
      match skipBlank (← skipString rest) with
      | [] => .error .endInObject
      | ':' :: rest => skip steps .value enclosing rest
      | _ => .error .expectedColon
    | _ => .error .keyNotString
  | _ + 1, .separator, [], text => .ok text
  | steps + 1, .separator, .list :: outer, text =>
    match skipBlank text with
    | [] => .error .endInList
    | ']' :: rest => skip steps .separator outer rest
    | ',' :: rest => skip steps .value (.list :: outer) rest
    | _ => .error .expectedCommaOrBracket
  | steps + 1, .separator, .object :: outer, text =>
    match skipBlank text with
    | [] => .error .endInObject
    | '}' :: rest => skip steps .separator outer rest
    | ',' :: rest => skip steps .key (.object :: outer) rest
    | _ => .error .expectedCommaOrBrace

/-- Skips one value. -/
def skipValue (steps : Nat) (text : List Char) : Except ReadError (List Char) :=
  skip steps .value [] text

end SearchSpace.Json
