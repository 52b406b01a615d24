/-!
# Scanning TOML text

A scanner takes characters off the front of a text and answers with a value, or it fails, and then
the text is no TOML document. Which way to go on is always decided by the characters that come
next, so no scanner has to be undone.

* `Cursor` — the rest of a text and how many bytes come before it;
* `Scan` — a scanner;
* `take`, `takeText`, `takeWhile` — the elementary scanners;
* `spaces`, `newLine?`, `lineEnd`, `gap` — what stands between keys, values and lines.
-/

namespace OverrideCheck.Toml

/-- The rest of a text and the number of bytes before it. -/
structure Cursor where
  rest : List Char
  offset : Nat

/-- A scanner: a value and the text after it, unless the text is at fault. -/
abbrev Scan (α : Type) := Cursor → Option (α × Cursor)

namespace Cursor

/-- The next character. -/
def next? (c : Cursor) : Option Char := c.rest.head?

/-- The cursor after the next character. -/
def step (c : Cursor) : Cursor :=
  match c.rest with
  | [] => c
  | x :: rest => ⟨rest, c.offset + x.utf8Size⟩

/-- The text goes on with the given characters. -/
def startsWith (c : Cursor) (text : List Char) : Bool := text.isPrefixOf c.rest

/-- The cursor after a number of characters. -/
def skip : Nat → Cursor → Cursor
  | 0, c => c
  | n + 1, c => skip n c.step

/-- The cursor after the characters of a class, and those characters. -/
def takeWhile (p : Char → Bool) (c : Cursor) : List Char × Cursor :=
  let taken := c.rest.takeWhile p
  (taken, c.skip taken.length)

end Cursor

/-- Takes the given characters. -/
def takeText (text : List Char) : Scan Unit := fun c =>
  if c.startsWith text then some ((), c.skip text.length) else none

/-- Takes one character of a class. -/
def take (p : Char → Bool) : Scan Char := fun c =>
  match c.next? with
  | some x => if p x then some (x, c.step) else none
  | none => none

/-- A blank within a line. -/
def isSpace (x : Char) : Bool := x = ' ' || x = '\t'

/-- The text after the blanks that come next. -/
def spaces (c : Cursor) : Cursor := (c.takeWhile isSpace).2

/-- The text after the line end that comes next, if one does. -/
def newLine? (c : Cursor) : Option Cursor :=
  if c.startsWith ['\n'] then some (c.skip 1)
  else if c.startsWith ['\r', '\n'] then some (c.skip 2)
  else none

/-- A character beyond ASCII. -/
def isWide (x : Char) : Bool := x.toNat ≥ 0x80

/-- A character that may stand in a comment. -/
def isCommentChar (x : Char) : Bool := x = '\t' || (' ' ≤ x && x ≤ '~') || isWide x

/-- The text after the comment that comes next, if one does. -/
def comment (c : Cursor) : Cursor :=
  if c.startsWith ['#'] then (c.takeWhile isCommentChar).2 else c

/-- Blanks, a comment perhaps, and the end of a line or of the text. -/
def lineEnd (c : Cursor) : Option Cursor :=
  let c := comment (spaces c)
  if c.rest.isEmpty then some c else newLine? c

/-- Blanks, comments and line ends, of which there may be `fuel`. A comment ends at a line end. -/
def gapFrom (fuel : Nat) (c : Cursor) : Cursor :=
  let c := comment (spaces c)
  match fuel, newLine? c with
  | fuel + 1, some c => gapFrom fuel c
  | _, _ => c

/-- Blanks, comments and line ends. -/
def gap (c : Cursor) : Cursor := gapFrom c.rest.length c

end OverrideCheck.Toml
