import SearchSpace.Text.Unprintable

/-!
# Escaped text

Text in double quotes as error messages show it: quotes, backslashes and the usual controls are
written with a backslash, and other characters that do not show as their code points.
-/

namespace SearchSpace.Text

/-- The digits of a number in base sixteen, in lower case. -/
def hexDigits (value : Nat) : List Char := Nat.toDigits 16 value

/-- One character of an escaped text. -/
def escapeChar (c : Char) : List Char :=
  match c with
  | '\x00' => ['\\', '0']
  | '\t' => ['\\', 't']
  | '\r' => ['\\', 'r']
  | '\n' => ['\\', 'n']
  | '\\' => ['\\', '\\']
  | '"' => ['\\', '"']
  | c =>
    if isUnprintable c then ['\\', 'u', '\x7b'] ++ hexDigits c.toNat ++ ['\x7d'] else [c]

/-- The text in double quotes. -/
def escaped (text : String) : String :=
  String.ofList ('"' :: (text.toList.flatMap escapeChar ++ ['"']))

end SearchSpace.Text
