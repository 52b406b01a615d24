import OverrideCheck.Contract.Compare
import OverrideCheck.Contract.Extract
import OverrideCheck.Report.Diagnostic
import OverrideCheck.Validation.Nearest

/-!
# Validation

Every participating method of a unit is held against the rules. Its annotations must not
contradict each other; if the policy asks for it, its type must be given; and its contract must
agree with that of the nearest participating declaration on each branch it overrides. A method
whose annotations contradict each other has no contract, so nothing more is said about it, and an
ancestor without a contract is not compared with.

* `Validator` — a program, the two capabilities the check relies on, and the policy;
* `Validator.methodProblems` — the problems of one method;
* `Validator.unitOutcome` — the outcome of one unit;
* `Validator.report` — the outcomes of all units, in input order;
* `Validator.contracts` — the contract of every participating method that has one;
* `Validator.ofProgram?` — the validator of a program and its settings.
-/

namespace OverrideCheck

/-- What a run needs: the program, how to find overridden declarations, how to read annotations,
and the verdict on unspecified types. -/
structure Validator where
  program : Program
  lookup : AncestorLookup
  reader : AnnotationReader
  policy : UnspecifiedPolicy

/-- The problem a contradiction is reported as. -/
def Contradiction.problem : Contradiction → Problem
  | .tooManyTypeParams _ => .tooManyTypeParams
  | .typeParamAlreadyDefined _ _ => .typeParamAlreadyDefined

/-- The path of the unit at an index. -/
def Program.pathAt (p : Program) (index : Nat) : String :=
  match p.units[index]? with
  | some unit => unit.path
  | none => "<unknown>"

/-- The outcomes of every unit of a program, in input order. -/
structure ProgramReport where
  outcomes : List UnitOutcome

namespace ProgramReport

/-- The failures, in input order. -/
def failures (r : ProgramReport) : List UnitFailure := r.outcomes.filterMap UnitOutcome.failure?

/-- Every unit is clean. -/
def isClean (r : ProgramReport) : Bool := r.outcomes.all UnitOutcome.isClean

/-- The path and the verdict of every unit. -/
def verdicts (r : ProgramReport) : List (String × Verdict) :=
  r.outcomes.map fun o => (o.path, o.verdict)

/-- Every diagnostic, by unit in input order and then by position. -/
def diagnostics (r : ProgramReport) : List Diagnostic := r.failures.flatMap (·.diagnostics)

end ProgramReport

namespace Validator

/-- The contract of a method. -/
def contractOf (v : Validator) (m : MethodRef) : Except (List Contradiction) RebindContract :=
  RebindContract.ofMethod? v.reader m.owner m.method (v.program.pathAt m.unitIndex)

/-- A method takes part in the protocol. -/
def participates (v : Validator) (m : MethodRef) : Bool := v.reader.participates m.method.node

/-- The nearest participating declarations that a method overrides. -/
def nearest (v : Validator) (m : MethodRef) : List MethodRef :=
  nearestParticipating v.reader (v.lookup m)

/-- The policy refuses a method of the given contract that overrides the given participating
declarations. -/
def missesType (v : Validator) (contract : RebindContract) (ancestors : List MethodRef) : Bool :=
  decide (contract.typeSource = .unspecified) && v.policy.rejects !ancestors.isEmpty

/-- A declaration has a contract that the given one may not override. -/
def conflicts (v : Validator) (contract : RebindContract) (ancestor : MethodRef) : Bool :=
  match v.contractOf ancestor with
  | .ok overridden => !decide (contract.Compatible overridden)
  | .error _ => false

/-- The problems of a participating method: its contradictions; else a missing type; else one
problem for each nearest declaration that it does not conform to, however much differs. -/
def participantProblems (v : Validator) (m : MethodRef) : List Problem :=
  match v.contractOf m with
  | .error found => found.map Contradiction.problem
  | .ok contract =>
    let ancestors := v.nearest m
    if v.missesType contract ancestors then [.missingType]
    else (ancestors.filter (v.conflicts contract)).map fun _ => .overrideMustConform

/-- The problems of a method; one that takes no part in the protocol has none. -/
def methodProblems (v : Validator) (m : MethodRef) : List Problem :=
  if v.participates m then v.participantProblems m else []

/-- The diagnostics of a method in the unit `path`, all at the method's own position. -/
def methodDiagnostics (v : Validator) (path : String) (m : MethodRef) : List Diagnostic :=
  (v.methodProblems m).map fun problem =>
    { unit := path, position := m.method.position, message := problem.message }

/-- The outcome of a unit that stands at the given index. -/
def outcomeOf (v : Validator) (unit : SourceUnit) (index : Nat) : UnitOutcome :=
  let methods := unit.methods index
  closeUnit unit.path (methods.flatMap (v.methodDiagnostics unit.path))
    (methods.filter v.participates).length

/-- The outcome of the unit at an index; `none` if the program has no such unit. -/
def unitOutcome? (v : Validator) (index : Nat) : Option UnitOutcome :=
  v.program.units[index]?.map fun unit => v.outcomeOf unit index

/-- The outcome of every unit. A unit that fails stops no other. -/
def report (v : Validator) : ProgramReport :=
  ⟨v.program.units.zipIdx.map fun (unit, index) => v.outcomeOf unit index⟩

/-- The contract of every participating method whose annotations do not contradict each other. -/
def contracts (v : Validator) : List RebindContract :=
  (v.program.methods.filter v.participates).filterMap fun m => (v.contractOf m).toOption

/-- The validator of a program under the given settings, relying on the program's own types; the
name of the first repeated type if they cannot be indexed. -/
def ofProgram? (p : Program) (settings : Settings) : Except String Validator :=
  (TypeIndex.ofProgram? p).map fun index =>
    { program := p
      lookup := index.overridden
      reader := settings.names.reader
      policy := settings.unspecified }

end Validator

end OverrideCheck
