import OverrideCheck.Program.Position

/-!
# Diagnostics and outcomes

A diagnostic is a problem found in one unit, with the place it was found at. Every finding stops
the work on its unit, so there is one severity. A unit's outcome is clean, with the number of
methods checked, or failed, with the diagnostics in order of their positions.

* `Problem` — what can be found, with its wording in `Problem.message`;
* `Diagnostic` — a finding, with `Diagnostic.line` as its one-line form;
* `UnitReport`, `UnitFailure`, `UnitOutcome` — the outcome of a unit;
* `sortDiagnostics` — stable sorting by position;
* `closeUnit` — the outcome of a unit from what was found in it.
-/

namespace OverrideCheck

/-- What can be wrong with a method. -/
inductive Problem
  | tooManyTypeParams
  | typeParamAlreadyDefined
  | missingType
  | overrideMustConform
deriving DecidableEq, Repr

/-- The wording of a problem. -/
def Problem.message : Problem → String
  | .tooManyTypeParams => "Too much type parameters"
  | .typeParamAlreadyDefined => "Type parameter already defined in rebind annotation"
  | .missingType => "Rebind annotation must define a type"
  | .overrideMustConform => "Overriding method must conform to the rebinding method signature"

/-- How grave a finding is. Every one stops the work on its unit. -/
inductive Severity
  | error
deriving DecidableEq, Repr

/-- A finding in one unit. -/
structure Diagnostic where
  severity : Severity := .error
  /-- Path of the unit. -/
  unit : String
  position : Position
  message : String
deriving DecidableEq, Repr

/-- The one-line form of a diagnostic. -/
def Diagnostic.line (d : Diagnostic) : String :=
  "Line " ++ Nat.repr d.position.line.toNat ++ ": " ++ d.message

/-- A unit in which nothing was found. -/
structure UnitReport where
  path : String
  methodsChecked : Nat
deriving DecidableEq, Repr

/-- A unit in which something was found. -/
structure UnitFailure where
  path : String
  diagnostics : List Diagnostic
deriving DecidableEq, Repr

/-- The headline of a failed unit. -/
def UnitFailure.title (f : UnitFailure) : String := "Errors in '" ++ f.path ++ "'"

/-- The verdict on a unit. -/
inductive Verdict
  | clean
  | failed
deriving DecidableEq, Repr

/-- The outcome of one unit. -/
inductive UnitOutcome
  | clean (report : UnitReport)
  | failed (failure : UnitFailure)
deriving DecidableEq, Repr

namespace UnitOutcome

/-- The path of the unit. -/
def path : UnitOutcome → String
  | .clean report => report.path
  | .failed failure => failure.path

/-- The verdict of an outcome. -/
def verdict : UnitOutcome → Verdict
  | .clean _ => .clean
  | .failed _ => .failed

/-- The failure, if the unit failed. -/
def failure? : UnitOutcome → Option UnitFailure
  | .clean _ => none
  | .failed failure => some failure

/-- The unit is clean. -/
def isClean (o : UnitOutcome) : Bool := o.failure?.isNone

end UnitOutcome

/-- Puts a diagnostic before the first one that does not stand earlier. -/
def insertDiagnostic (d : Diagnostic) : List Diagnostic → List Diagnostic
  | [] => [d]
  | other :: rest =>
    if d.position.le other.position then d :: other :: rest
    else other :: insertDiagnostic d rest

/-- Diagnostics in order of their positions; those at one position keep their order. -/
def sortDiagnostics (ds : List Diagnostic) : List Diagnostic := ds.foldr insertDiagnostic []

/-- The outcome of the unit `path`: clean if nothing was found in it, failed otherwise. -/
def closeUnit (path : String) (found : List Diagnostic) (methodsChecked : Nat) : UnitOutcome :=
  match found with
  | [] => .clean ⟨path, methodsChecked⟩
  | _ :: _ => .failed ⟨path, sortDiagnostics found⟩

end OverrideCheck
