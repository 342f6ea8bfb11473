/-!
# Plain text

Text without the controls of a terminal. A control sequence starts with the escape character, and
what it is goes by the characters behind: a short sequence ends with the first character from `0` to
`~`, a sequence with parameters with the first from `@` to `~`, a command at the bell, and a string
at the byte that terminates strings. A control for the device has a header in front of its string.
The escape character itself starts over, and two controls give up a sequence.
-/

namespace SearchSpace.Text

/-- What the characters of a text belong to. -/
inductive Mode where
  | text
  /-- A sequence of which only the escape character has been seen. -/
  | escape
  /-- A short sequence. -/
  | short
  /-- A sequence with parameters, opened by a square bracket. -/
  | parameters
  /-- A command of the operating system. -/
  | command
  /-- The start of a control for the device, which consists of a header and a string. -/
  | device
  /-- The parameters in the header of a control for the device. -/
  | deviceParameters
  /-- The punctuation at the end of the header of a control for the device. -/
  | devicePunctuation
  /-- A string, for the device or the program. It also follows a header that is malformed. -/
  | string
deriving DecidableEq, Repr

/-- Whether the character lies between two others. -/
def isBetween (low high c : Char) : Bool := low ≤ c && c ≤ high

/-- Whether the character is a control that lays text out: a tab, an end of a line or of a page. -/
def isLayout (c : Char) : Bool := c = '\t' || isBetween '\n' '\r' c && c ≠ '\x0b'

/-- Whether the character is part of plain text. -/
def isPlain (c : Char) : Bool := isLayout c || ' ' ≤ c && c ≠ '\x7f'

/-- Whether the encoding of the character has the byte that terminates strings. -/
def hasTerminator (c : Char) : Bool := (String.utf8EncodeChar c).contains 0x9c

namespace Mode

/-- What the character after an escape character opens. -/
def opened (c : Char) : Mode :=
  match c with
  | '[' => .parameters
  | ']' => .command
  | 'P' => .device
  | 'X' | '^' | '_' => .string
  | c =>
    if isBetween ' ' '/' c then .short
    else if isBetween '0' '~' c then .text
    else .escape

/-- What the characters after the given one belong to. -/
def next (mode : Mode) (c : Char) : Mode :=
  match c with
  | '\x18' | '\x1a' => .text
  | '\x1b' => .escape
  | c =>
    match mode with
    | .text => .text
    | .escape => opened c
    | .short => if isBetween '0' '~' c then .text else .short
    | .parameters => if isBetween '@' '~' c then .text else .parameters
    | .command => if c = '\x07' then .text else .command
    | .device =>
      if isBetween '@' '~' c then .string
      else if isBetween '0' '?' c then .deviceParameters
      else if isBetween ' ' '/' c then .devicePunctuation
      else .device
    | .deviceParameters =>
      if isBetween '<' '~' c then .string
      else if isBetween ' ' '/' c then .devicePunctuation
      else .deviceParameters
    | .devicePunctuation => if isBetween '0' '~' c then .string else .devicePunctuation
    | .string => if hasTerminator c then .text else .string

/-- Whether the character shows. Of a sequence only layout does, and of commands and controls with
strings not even that. -/
def shows (mode : Mode) (c : Char) : Bool :=
  match mode with
  | .text => isPlain c
  | .escape | .short | .parameters => isLayout c
  | .command | .device | .deviceParameters | .devicePunctuation | .string => false

end Mode

/-- The characters that show. Layout inside a sequence interrupts it: plain text goes on to show
until the next control, which resumes the sequence unless a character outside ASCII has ended it. -/
def plainChars (mode : Mode) (interrupted : Bool) : List Char → List Char
  | [] => []
  | c :: rest =>
    if interrupted && isPlain c then
      c :: plainChars (if c.toNat < 128 then mode else .text) true rest
    else if mode.shows c then c :: plainChars mode true rest
    else plainChars (mode.next c) false rest

/-- The text without controls. -/
def plain (text : String) : String := String.ofList (plainChars .text false text.toList)

end SearchSpace.Text
