import OverrideCheck.Report.Diagnostic

/-!
# Collecting diagnostics

The findings of one unit, gathered in the order they are made until the unit is closed.

* `Collector` — a unit and what was found in it so far;
* `Collector.error` — one more finding;
* `Collector.sorted`, `Collector.finish` — the findings in order, and the unit's outcome.
-/

namespace OverrideCheck

/-- What was found in one unit so far, in the order of the findings. -/
structure Collector where
  unit : String
  found : List Diagnostic := []

namespace Collector

/-- One more finding. -/
def error (c : Collector) (position : Position) (message : String) : Collector :=
  { c with found := c.found ++ [{ unit := c.unit, position, message }] }

/-- The number of findings. -/
def size (c : Collector) : Nat := c.found.length

/-- Nothing was found. -/
def isEmpty (c : Collector) : Bool := c.found.isEmpty

/-- Something was found. -/
def hasErrors (c : Collector) : Bool := !c.isEmpty

/-- The findings in order of their positions. -/
def sorted (c : Collector) : List Diagnostic := sortDiagnostics c.found

/-- The outcome of the unit, in which the given number of methods was checked. -/
def finish (c : Collector) (methodsChecked : Nat) : UnitOutcome :=
  closeUnit c.unit c.found methodsChecked

/-- A finding adds one to their number. -/
@[simp] theorem size_error (c : Collector) (position : Position) (message : String) :
    (c.error position message).size = c.size + 1 := by
  simp [error, size]

end Collector

end OverrideCheck
