/-!
# Positions

Where a declaration stands in its source text: a line and a column, both counted from one.
Positions are ordered line first; diagnostics are reported in that order.

* `Position` — line and column;
* `Position.atLine` — the start of a line;
* `Located` — a value together with the position it was declared at.
-/

namespace OverrideCheck

/-- A line and a column, both counted from one. The numbers are not checked: a model may place a
declaration at line zero. -/
structure Position where
  line : UInt32
  column : UInt32
deriving DecidableEq, Repr, Inhabited

namespace Position

/-- The start of a line. -/
def atLine (line : UInt32) : Position := ⟨line, 1⟩

/-- Line first, then column. -/
def le (a b : Position) : Bool :=
  a.line < b.line || (a.line == b.line && a.column ≤ b.column)

end Position

/-- A value and the position it was declared at. -/
structure Located (α : Type) where
  node : α
  position : Position
deriving Repr

end OverrideCheck
