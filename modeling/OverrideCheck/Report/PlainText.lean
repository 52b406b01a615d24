import OverrideCheck.Report.Snippet
import OverrideCheck.Validation.Basic

/-!
# Text of a report

The report on a program names each failed unit in a headline and shows its diagnostics below: one
line each, or a snippet each where the unit carries its source. Clean units are not mentioned.

* `UnitFailure.plainText` — headline and one line per diagnostic;
* `UnitFailure.render` — with snippets if there is a source;
* `Program.renderReport` — the failures of a report, with the sources of the program's units.
-/

namespace OverrideCheck

namespace UnitFailure

/-- The headline, then one line for each diagnostic. -/
def plainText (f : UnitFailure) : String :=
  f.title ++ "\n" ++ String.join (f.diagnostics.map fun d => "  " ++ d.line ++ "\n")

/-- The failure with snippets of the given source; without one, as plain text. -/
def render (f : UnitFailure) (source? : Option String) (colour : Bool) : String :=
  match source? with
  | none => f.plainText
  | some source =>
    f.title ++ "\n" ++ String.join (f.diagnostics.map fun d => renderDiagnostic source d colour)

end UnitFailure

/-- The text of an outcome: nothing if the unit is clean. -/
def UnitOutcome.render (o : UnitOutcome) (source? : Option String) (colour : Bool) : String :=
  match o with
  | .clean _ => ""
  | .failed f => f.render source? colour

/-- The text of a report on a program. -/
def Program.renderReport (p : Program) (r : ProgramReport) (colour : Bool) : String :=
  String.join ((p.units.zip r.outcomes).map fun (unit, outcome) =>
    outcome.render unit.source? colour)

end OverrideCheck
