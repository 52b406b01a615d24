/-!
# Faults in JSON text

A fault is a place in the text and the reason why reading cannot go on there. Places are counted
in bytes from the start of the text. A fault that is found by looking at a byte without taking it
is placed after that byte; one that is found when the text ends is placed at its end.

* `FaultCause`, `FaultCause.message` — the reasons and their wording;
* `Fault` — a reason and a place;
* `Breach` — where a text breaks off, told once for a value that is being read and once for a value
  that is being skipped;
* `lineAndColumn` — the line and the column, in bytes, of a place in a text.

The two accounts of a breach differ because a skipped value is only checked for its shape: its
strings are not decoded, its numbers are not evaluated, and what follows a comma is not looked at
in advance.
-/

namespace OverrideCheck.Json

/-- Why reading cannot go on. -/
inductive FaultCause
  | expectedValue
  | expectedWord
  | expectedColon
  | expectedListCommaOrEnd
  | expectedObjectCommaOrEnd
  | keyMustBeString
  | trailingComma
  | trailingCharacters
  | endInValue
  | endInList
  | endInObject
  | endInString
  | invalidNumber
  | numberOutOfRange
  | invalidEscape
  | loneSurrogate
  | unexpectedEndOfHexEscape
  | controlCharacter
  | recursionLimit
deriving DecidableEq, Repr

/-- The wording of a cause. -/
def FaultCause.message : FaultCause → String
  | .expectedValue => "expected value"
  | .expectedWord => "expected ident"
  | .expectedColon => "expected `:`"
  | .expectedListCommaOrEnd => "expected `,` or `]`"
  | .expectedObjectCommaOrEnd => "expected `,` or `\x7d`"
  | .keyMustBeString => "key must be a string"
  | .trailingComma => "trailing comma"
  | .trailingCharacters => "trailing characters"
  | .endInValue => "EOF while parsing a value"
  | .endInList => "EOF while parsing a list"
  | .endInObject => "EOF while parsing an object"
  | .endInString => "EOF while parsing a string"
  | .invalidNumber => "invalid number"
  | .numberOutOfRange => "number out of range"
  | .invalidEscape => "invalid escape"
  | .loneSurrogate => "lone leading surrogate in hex escape"
  | .unexpectedEndOfHexEscape => "unexpected end of hex escape"
  | .controlCharacter => "control character (\\u0000-\\u001F) found while parsing a string"
  | .recursionLimit => "recursion limit exceeded"

/-- A place in the text, in bytes from its start, and the reason why reading stops there. -/
structure Fault where
  offset : Nat
  cause : FaultCause
deriving DecidableEq, Repr

/-- Where a text breaks off, for a reader and for one who skips. -/
structure Breach where
  read : Fault
  skip : Fault
deriving DecidableEq, Repr

/-- A breach that is told the same way to both. -/
def Breach.both (offset : Nat) (cause : FaultCause) : Breach := ⟨⟨offset, cause⟩, ⟨offset, cause⟩⟩

/-- The line, from one, and the column, in bytes taken since the line began, of the place `offset`
bytes into a text; `line` and `column` are those of the text's start. -/
def advance (line column : Nat) (offset : Nat) : List Char → Nat × Nat
  | [] => (line, column + offset)
  | c :: rest =>
    if offset < c.utf8Size then (line, column + offset)
    else if c = '\n' then advance (line + 1) 0 (offset - c.utf8Size) rest
    else advance line (column + c.utf8Size) (offset - c.utf8Size) rest

/-- The line, from one, and the column, in bytes, of a place in a text. -/
def lineAndColumn (text : String) (offset : Nat) : Nat × Nat := advance 1 0 offset text.toList

end OverrideCheck.Json
