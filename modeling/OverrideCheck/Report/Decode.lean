import OverrideCheck.Program.Decode
import OverrideCheck.Report.Diagnostic

/-!
# Reading reports

Decoders for diagnostics and for the outcomes of units. Their records take unknown fields and
leave none of their own out.

* `decodeDiagnostic`, `decodeUnitReport`, `decodeUnitFailure`, `decodeVerdict`.
-/

namespace OverrideCheck

open Json

/-- A diagnostic that is being read. -/
structure DiagnosticDraft where
  severity : Option Severity := none
  unit : Option String := none
  position : Option Position := none
  message : Option String := none

/-- A diagnostic, of which nothing may be left out. -/
def diagnosticFormat : RecordFormat DiagnosticDraft Diagnostic where
  name := "Diagnostic"
  fields := [
    .of "severity" (·.severity) (fun draft v => { draft with severity := some v })
      (decodeVariant [("error", .error)]),
    .of "unit" (·.unit) (fun draft v => { draft with unit := some v }) decodeString,
    .of "span" (·.position) (fun draft v => { draft with position := some v }) decodePosition,
    .of "message" (·.message) (fun draft v => { draft with message := some v }) decodeString]
  lenient := true
  start := {}
  finish draft := do
    return ⟨← need "severity" draft.severity, ← need "unit" draft.unit,
      ← need "span" draft.position, ← need "message" draft.message⟩

/-- A diagnostic. -/
def decodeDiagnostic : Decoder Diagnostic := decodeRecord diagnosticFormat

/-- A report on a clean unit that is being read. -/
structure UnitReportDraft where
  path : Option String := none
  methodsChecked : Option Nat := none

/-- A report on a clean unit, of which nothing may be left out. -/
def unitReportFormat : RecordFormat UnitReportDraft UnitReport where
  name := "UnitReport"
  fields := [
    .of "path" (·.path) (fun draft v => { draft with path := some v }) decodeString,
    .of "methods_checked" (·.methodsChecked) (fun draft v => { draft with methodsChecked := some v })
      decodeCount]
  lenient := true
  start := {}
  finish draft := do
    return ⟨← need "path" draft.path, ← need "methods_checked" draft.methodsChecked⟩

/-- A report on a clean unit. -/
def decodeUnitReport : Decoder UnitReport := decodeRecord unitReportFormat

/-- A failure that is being read. -/
structure UnitFailureDraft where
  path : Option String := none
  diagnostics : Option (List Diagnostic) := none

/-- A failure, of which nothing may be left out. -/
def unitFailureFormat : RecordFormat UnitFailureDraft UnitFailure where
  name := "UnitFailure"
  fields := [
    .of "path" (·.path) (fun draft v => { draft with path := some v }) decodeString,
    .of "diagnostics" (·.diagnostics) (fun draft v => { draft with diagnostics := some v })
      (decodeList decodeDiagnostic)]
  lenient := true
  start := {}
  finish draft := do
    return ⟨← need "path" draft.path, ← need "diagnostics" draft.diagnostics⟩

/-- A failure. -/
def decodeUnitFailure : Decoder UnitFailure := decodeRecord unitFailureFormat

/-- A verdict. -/
def decodeVerdict : Decoder Verdict := decodeVariant [("clean", .clean), ("failed", .failed)]

end OverrideCheck
