import OverrideCheck.Toml.Cursor
import OverrideCheck.Toml.Node

/-!
# TOML strings and keys

The four forms of strings, and keys, which are bare words or strings of one line.

* `escaped` — the character of an escape;
* `basicString`, `literalString` — strings of one line;
* `longBasicString`, `longLiteralString` — strings of several lines, in which every line end counts
  as a line feed;
* `simpleKey`, `dottedKey` — keys.
-/

namespace OverrideCheck.Toml

/-- The value of a hexadecimal digit. -/
def hexValue? (x : Char) : Option Nat :=
  if '0' ≤ x ∧ x ≤ '9' then some (x.toNat - 48)
  else if 'a' ≤ x ∧ x ≤ 'f' then some (x.toNat - 87)
  else if 'A' ≤ x ∧ x ≤ 'F' then some (x.toNat - 55)
  else none

/-- The value of a number of hexadecimal digits. -/
def hexDigits : Nat → Nat → Scan Nat
  | 0, value, c => some (value, c)
  | n + 1, value, c => do
    let digit ← hexValue? (← c.next?)
    hexDigits n (value * 16 + digit) c.step

/-- The character of a code point, which may not be half of a surrogate pair. -/
def scalar? (n : Nat) : Option Char := if n.isValidChar then some (Char.ofNat n) else none

/-- The character of an escape, of which the backslash is taken. -/
def escaped : Scan Char := fun c => do
  let point (digits : Nat) : Option (Char × Cursor) := do
    let (n, c) ← hexDigits digits 0 c.step
    return (← scalar? n, c)
  match ← c.next? with
  | 'b' => some ('\x08', c.step)
  | 't' => some ('\t', c.step)
  | 'n' => some ('\n', c.step)
  | 'f' => some ('\x0c', c.step)
  | 'r' => some ('\r', c.step)
  | '"' => some ('"', c.step)
  | '\\' => some ('\\', c.step)
  | 'u' => point 4
  | 'U' => point 8
  | _ => none

/-- A character that stands for itself between quotation marks. -/
def isBasicChar (x : Char) : Bool :=
  x = '\t' || (' ' ≤ x && x ≤ '~' && x != '"' && x != '\\') || isWide x

/-- A character that stands for itself between apostrophes. -/
def isLiteralChar (x : Char) : Bool := x = '\t' || (' ' ≤ x && x ≤ '~' && x != '\'') || isWide x

/-- The rest of a string between quotation marks. Each character takes one of `fuel`. -/
def basicRest (fuel : Nat) (chars : List Char) (c : Cursor) : Option (String × Cursor) :=
  match fuel with
  | 0 => none
  | fuel + 1 => do
    let x ← c.next?
    if x = '"' then some (String.ofList chars.reverse, c.step)
    else if x = '\\' then
      let (x, c) ← escaped c.step
      basicRest fuel (x :: chars) c
    else if isBasicChar x then basicRest fuel (x :: chars) c.step
    else none

/-- A string between quotation marks. -/
def basicString : Scan String := fun c => basicRest (c.rest.length + 1) [] c.step

/-- A string between apostrophes. -/
def literalString : Scan String := fun c => do
  let (chars, c) := c.step.takeWhile isLiteralChar
  let ((), c) ← takeText ['\''] c
  return (String.ofList chars, c)

/-- The blanks and line ends after a backslash at the end of a line. -/
def foldedLines (fuel : Nat) (c : Cursor) : Cursor :=
  let c := spaces c
  match fuel, newLine? c with
  | fuel + 1, some c => foldedLines fuel c
  | _, _ => c

/-- The closing marks of a long string: three, before which one or two of the same may stand. -/
def closingMarks? (mark : Char) (c : Cursor) : Option (List Char × Cursor) :=
  let marks := (c.takeWhile (· = mark)).1.length
  if marks < 3 then none
  else
    let inner := min (marks - 3) 2
    some (List.replicate inner mark, c.skip (inner + 3))

/-- The rest of a long string between quotation marks. -/
def longBasicRest (fuel : Nat) (chars : List Char) (c : Cursor) : Option (String × Cursor) :=
  match fuel with
  | 0 => none
  | fuel + 1 =>
    match closingMarks? '"' c with
    | some (marks, c) => some (String.ofList (chars.reverse ++ marks), c)
    | none => do
      let x ← c.next?
      match newLine? c with
      | some c => longBasicRest fuel ('\n' :: chars) c
      | none =>
        if x = '\\' then
          match newLine? (spaces c.step) with
          | some folded => longBasicRest fuel chars (foldedLines folded.rest.length folded)
          | none =>
            let (x, c) ← escaped c.step
            longBasicRest fuel (x :: chars) c
        else if isBasicChar x || x = '"' then longBasicRest fuel (x :: chars) c.step
        else none

/-- The rest of a long string between apostrophes. -/
def longLiteralRest (fuel : Nat) (chars : List Char) (c : Cursor) : Option (String × Cursor) :=
  match fuel with
  | 0 => none
  | fuel + 1 =>
    match closingMarks? '\'' c with
    | some (marks, c) => some (String.ofList (chars.reverse ++ marks), c)
    | none => do
      let x ← c.next?
      match newLine? c with
      | some c => longLiteralRest fuel ('\n' :: chars) c
      | none =>
        if isLiteralChar x || x = '\'' then longLiteralRest fuel (x :: chars) c.step else none

/-- A long string between quotation marks. A line end right after the opening marks is dropped. -/
def longBasicString : Scan String := fun c =>
  let c := c.skip 3
  longBasicRest (c.rest.length + 1) [] ((newLine? c).getD c)

/-- A long string between apostrophes. A line end right after the opening marks is dropped. -/
def longLiteralString : Scan String := fun c =>
  let c := c.skip 3
  longLiteralRest (c.rest.length + 1) [] ((newLine? c).getD c)

/-- A string of any form, from its first mark. -/
def anyString : Scan String := fun c =>
  if c.startsWith ['"', '"', '"'] then longBasicString c
  else if c.startsWith ['"'] then basicString c
  else if c.startsWith ['\'', '\'', '\''] then longLiteralString c
  else if c.startsWith ['\''] then literalString c
  else none

/-- A character of a bare key. -/
def isBareKeyChar (x : Char) : Bool := x.isAlphanum || x = '_' || x = '-'

/-- A key of one part. -/
def simpleKey : Scan Key := fun c => do
  let key (text : String) (stop : Cursor) : Key := ⟨text, ⟨c.offset, stop.offset⟩⟩
  match ← c.next? with
  | '"' =>
    let (text, stop) ← basicString c
    return (key text stop, stop)
  | '\'' =>
    let (text, stop) ← literalString c
    return (key text stop, stop)
  | _ =>
    let (chars, stop) := c.takeWhile isBareKeyChar
    if chars.isEmpty then none else some (key (String.ofList chars) stop, stop)

/-- The most parts a dotted key may have, plus one. -/
def partLimit : Nat := 80

/-- The parts of a dotted key from the next one on, with blanks around them. There may be fewer
than `fuel`. -/
def dottedKeyFrom : Nat → Scan (List Key)
  | 0, _ => none
  | fuel + 1, c => do
    let (key, c) ← simpleKey (spaces c)
    let c := spaces c
    if c.startsWith ['.'] then
      let (keys, c) ← dottedKeyFrom fuel c.step
      return (key :: keys, c)
    else return ([key], c)

/-- A dotted key: the parts before the last one, and the last one. -/
def dottedKey : Scan (List Key × Key) := fun c => do
  let (keys, c) ← dottedKeyFrom (partLimit - 1) c
  return ((keys.dropLast, ← keys.getLast?), c)

end OverrideCheck.Toml
