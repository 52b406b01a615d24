import OverrideCheck.Report.Diagnostic
import OverrideCheck.Report.LineIndex
import OverrideCheck.Text.Blank
import OverrideCheck.Text.Width

/-!
# Source snippets

A diagnostic shown against its source: a headline, the line it stands on in a frame, that line
underlined, and the message at the end of an arrow from the middle of the line.

* `shownLines` — the lines of a text as they are shown, each with the offset it begins at;
* `Snippet`, `Snippet.of?` — the line to show and the columns to mark in it;
* `Snippet.render` — the frame around it;
* `renderDiagnostic` — headline and frame; an empty source has no frame.

Lines are shown as text is broken on a screen, that is, not only at line feeds, whereas the line
to mark comes from the line index. Both rows below the line go two columns beyond its end.
-/

namespace OverrideCheck

/-- A character after which a shown line ends, besides the carriage return. -/
def isLineEnd (c : Char) : Bool :=
  c = '\n' || c = '\x0b' || c = '\x0c' || c = '\u0085' || c = '\u2028' || c = '\u2029'

/-- The shown lines of a text that begins at `offset`; `current` holds the characters of the line
so far, last one first, which begins at `start`. A line feed after a carriage return belongs to
the same line end. There is no empty line after the last line end. -/
def shownLinesFrom (start offset : Nat) (current : List Char) : List Char → List (Nat × List Char)
  | [] => if current.isEmpty then [] else [(start, current.reverse)]
  | ['\r'] => [(start, ('\r' :: current).reverse)]
  | '\r' :: c :: rest =>
    if c = '\n' then shownLinesFrom start (offset + 1) ('\r' :: current) (c :: rest)
    else (start, ('\r' :: current).reverse) :: shownLinesFrom (offset + 1) (offset + 1) [] (c :: rest)
  | c :: rest =>
    if isLineEnd c then
      (start, (c :: current).reverse) :: shownLinesFrom (offset + 1) (offset + 1) [] rest
    else shownLinesFrom start (offset + 1) (c :: current) rest

/-- The shown lines of a text, each with the offset of its first character. -/
def shownLines (source : String) : List (Nat × List Char) := shownLinesFrom 0 0 [] source.toList

/-- A line to show and the columns to mark in it, counted in characters. -/
structure Snippet where
  /-- Number of the shown line, from one. -/
  row : Nat
  /-- The line without the blanks at its end. -/
  text : List Char
  /-- The marked columns, up to but not including the second. -/
  first : Nat
  last : Nat

namespace Snippet

/-- The snippet of a range of characters: the last shown line that begins at or before it. -/
def of? (source : String) (range : Nat × Nat) : Option Snippet :=
  let before := (shownLines source).takeWhile fun line => line.1 ≤ range.1
  before.getLast?.map fun (start, text) =>
    ⟨before.length, trimBlankEnd text, range.1 - start, range.2 - start⟩

/-- The column the arrow leaves from. -/
def middle (s : Snippet) : Nat := (s.first + s.last) / 2

/-- The width of a column that holds the given character, if any. -/
def columnWidth (column : Nat) : Option Char → Nat
  | none => 1
  | some c => if c = '\t' then 4 - column % 4 else if isBlank c then 1 else charWidth c

/-- A piece of text in a colour. -/
def paint (colour : Bool) (code text : String) : String :=
  if colour then "\x1b[" ++ code ++ "m" ++ text ++ "\x1b[0m" else text

/-- The colour of the frame. -/
def frameCode : String := "38;5;246"

/-- The colour of the frame beside the rows below the line. -/
def faintFrameCode : String := "38;5;240"

/-- The colour of characters that are not marked. -/
def unmarkedCode : String := "38;5;249"

/-- A text repeated. -/
def times (n : Nat) (s : String) : String := String.join (List.replicate n s)

/-- A character of the line, as it is shown in a column. -/
def shownChar (s : Snippet) (colour : Bool) (column : Nat) (c : Char) : String :=
  let marked := s.first ≤ column && column < s.last
  let one (text : String) := if marked then text else paint colour unmarkedCode text
  if isBlank c then times (columnWidth column (some c)) (one " ") else one (String.singleton c)

/-- The line as it is shown. -/
def shownText (s : Snippet) (colour : Bool) : String :=
  String.join (s.text.zipIdx.map fun (c, column) => s.shownChar colour column c)

/-- The columns of the rows below the line, with their characters: up to two columns after the
marked ones, and without a character where the line has ended. -/
def columns (s : Snippet) : List (Option Char) :=
  (s.text.map some ++ List.replicate (s.last + 2) none).take (s.last + 2)

/-- A row of columns below the line. Each column shows a mark and fills its width with another
one. -/
def markRow (s : Snippet) (mark : Nat → String × String) : String :=
  String.join (s.columns.zipIdx.map fun (c, column) =>
    match columnWidth column c with
    | 0 => ""
    | width + 1 => (mark column).1 ++ times width (mark column).2)

/-- The row that underlines the marked columns. -/
def underline (s : Snippet) : String :=
  s.markRow fun column =>
    if column = s.middle then if s.first < s.last then ("┬", "─") else ("│", " ")
    else if s.first ≤ column && column < s.last then ("─", "─")
    else (" ", " ")

/-- The row of the arrow that leads to the message. -/
def arrow (s : Snippet) : String :=
  s.markRow fun column =>
    if column < s.middle then (" ", " ") else if column = s.middle then ("╰", "─") else ("─", "─")

/-- The snippet in its frame, with a message. -/
def render (s : Snippet) (colour : Bool) (message : String) : String :=
  let number := Nat.repr s.row
  let margin := times (number.length + 1) " "
  let frame := paint colour frameCode
  let faint := " " ++ paint colour faintFrameCode (margin ++ "│") ++ " "
  margin ++ " " ++ frame "╭" ++ frame "─" ++ frame "[" ++ "<unknown>:" ++ number ++ ":" ++
    Nat.repr (s.first + 1) ++ frame "]" ++ "\n" ++
  margin ++ " " ++ frame "│" ++ "\n" ++
  " " ++ frame (number ++ " │") ++ " " ++ s.shownText colour ++ "\n" ++
  faint ++ s.underline ++ "\n" ++
  faint ++ s.arrow ++ " " ++ message ++ "\n" ++
  frame (times (number.length + 2) "─" ++ "╯") ++ "\n"

end Snippet

/-- A diagnostic shown against the source of its unit. -/
def renderDiagnostic (source : String) (d : Diagnostic) (colour : Bool) : String :=
  let range := (LineIndex.ofSource source).lineRange d.position.line
  Snippet.paint colour "31" "Error:" ++ " in '" ++ d.unit ++ "'\n" ++
    match Snippet.of? source range with
    | none => ""
    | some s => s.render colour d.message

end OverrideCheck
