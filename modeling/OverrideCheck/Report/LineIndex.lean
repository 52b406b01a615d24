/-!
# Line index

Where the lines of a source text begin, counted in characters. Lines are separated by line feeds
and numbered from one.

* `LineIndex`, `LineIndex.ofSource` — the starts of the lines and the length of the text;
* `LineIndex.lineRange` — the characters of a line, without the line feed at its end.

A line beyond the last one is an empty range at the end of the text, and line zero is line one.
-/

namespace OverrideCheck

/-- The offsets right after the line feeds of a text that begins at `offset`. -/
def lineStartsFrom (offset : Nat) : List Char → List Nat
  | [] => []
  | c :: rest =>
    if c = '\n' then (offset + 1) :: lineStartsFrom (offset + 1) rest
    else lineStartsFrom (offset + 1) rest

/-- The starts of the lines of a text and its length, in characters. -/
structure LineIndex where
  starts : List Nat
  size : Nat
deriving DecidableEq, Repr

namespace LineIndex

/-- The index of a source text. -/
def ofSource (source : String) : LineIndex :=
  let cs := source.toList
  ⟨0 :: lineStartsFrom 0 cs, cs.length⟩

/-- The start and the end of a line. -/
def lineRange (index : LineIndex) (line : UInt32) : Nat × Nat :=
  let i := line.toNat - 1
  match index.starts[i]? with
  | none => (index.size, index.size)
  | some start =>
    match index.starts[i + 1]? with
    | some next => (start, next - 1)
    | none => (start, index.size)

end LineIndex

end OverrideCheck
