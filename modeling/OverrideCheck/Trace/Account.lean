import OverrideCheck.Trace.Event
import OverrideCheck.Validation.Basic

/-!
# The account of a run

The events of a run, in the order in which the check comes upon their causes. They are told from
the same definitions as the outcome, so the account says nothing that the check does not do.

* `settingsEvent` — the settings are known;
* `Account` — what an account is about: a validator that relies on a program's own types and on
  configured names;
* `Account.unitEvents` — the validation of one unit;
* `Account.reportEvents`, `Account.contractEvents` — a whole check, and a listing of contracts.

An annotation is read anew each time it is asked for, and noted each time: once to see whether the
method takes part, and once more to build its contract.
-/

namespace OverrideCheck

/-- The part of the program that events of the check come from. -/
def checkTarget : String := "rebindc::rebind"

/-! ### Values as they are noted -/

mutual

/-- An annotation value as it is noted. -/
def AnnotationValue.note : AnnotationValue → String
  | .classLiteral name => "Class(" ++ quoted name ++ ")"
  | .string text => "Str(" ++ quoted text ++ ")"
  | .integer value => "Int(" ++ toString value.toInt ++ ")"
  | .boolean value => "Bool(" ++ Json.boolText value ++ ")"
  | .array elements => "Array([" ++ AnnotationValue.notes elements ++ "])"

/-- Several annotation values as they are noted. -/
def AnnotationValue.notes : List AnnotationValue → String
  | [] => ""
  | [value] => value.note
  | value :: rest => value.note ++ ", " ++ AnnotationValue.notes rest

end

/-- A policy as it is noted. -/
def UnspecifiedPolicy.note : UnspecifiedPolicy → String
  | .allow => "Allow"
  | .deny => "Deny"
  | .denyOnOverride => "DenyOnOverride"

/-- A record of named values as it is noted. -/
def recordNote (name : String) (fields : List (String × String)) : String :=
  name ++ " \x7b " ++
    String.intercalate ", " (fields.map fun (field, value) => field ++ ": " ++ value) ++ " \x7d"

/-- The annotation names as they are noted. -/
def AnnotationNames.note (n : AnnotationNames) : String :=
  recordNote "AnnotationNames" [
    ("rebind", quoted n.rebind), ("type_param", quoted n.typeParam),
    ("rebind_param", quoted n.rebindParam), ("type_member", quoted n.typeMember),
    ("default_type", match n.defaultType with
      | none => "None"
      | some className => "Some(" ++ quoted className ++ ")")]

/-- Settings as they are noted. -/
def Settings.note (s : Settings) : String :=
  recordNote "ValidatorConfig" [
    ("annotations", s.names.note),
    ("validation", recordNote "ValidationOptions" [
      ("unspecified", s.unspecified.note), ("parallel", Json.boolText s.parallel)])]

/-- The settings of a run are known. -/
def settingsEvent (s : Settings) : Event :=
  { level := .debug, target := "rebindc", message := "loaded configuration"
    fields := [("config", .shown s.note)] }

/-! ### Events of the check -/

/-- What an account is about. -/
structure Account where
  validator : Validator
  names : AnnotationNames
  index : TypeIndex

namespace Account

/-- The account of a program under the given settings; the name of the first repeated type if its
types cannot be indexed. -/
def ofProgram? (p : Program) (settings : Settings) : Except String Account :=
  match TypeIndex.ofProgram? p, Validator.ofProgram? p settings with
  | .ok index, .ok validator => .ok ⟨validator, settings.names, index⟩
  | .error name, _ | _, .error name => .error name

/-- A detail of the check. -/
def detail (part message : String) (fields : List (String × FieldValue)) : Event :=
  { level := .trace, target := checkTarget ++ part, message, fields }

/-- The rebind annotation of a method is read. -/
def readingEvents (a : Account) (m : MethodRef) : List Event :=
  match a.names.ignoredValue? m.method.node with
  | none => []
  | some value =>
    [detail "::annotations" "ignoring non-class rebind type value" [("value", .shown value.note)]]

/-- The contract of a method is built. -/
def buildingEvents (a : Account) (m : MethodRef) : List Event :=
  a.readingEvents m ++
    match a.validator.contractOf m with
    | .error _ => []
    | .ok contract =>
      [detail "::extract" "built rebind contract" [
        ("owner", .shown contract.owner), ("method", .shown contract.signature.name),
        ("source", .shown contract.typeSource.describe)]]

/-- A visit on the way up, if it leads no further. -/
def visitEvent? : Visit → Option Event
  | .reached _ => none
  | .superclassSeen type superclass =>
    some (detail "::hierarchy" "superclass already visited"
      [("ty", .shown type), ("superclass", .text superclass)])
  | .superclassOutside superclass =>
    some (detail "::hierarchy" "superclass outside the program" [("superclass", .text superclass)])
  | .supertypeOutside type supertype =>
    some (detail "::hierarchy" "supertype outside the program"
      [("ty", .shown type), ("supertype", .shown supertype)])

/-- The supertypes of a type are walked. -/
def walkEvents (a : Account) (t : TypeDecl) : List Event :=
  (a.index.branchVisits t).flatten.filterMap visitEvent?

/-- The nearest participating declarations are looked for, on the branches not settled yet. -/
def searchEvents (a : Account) (settled : List Nat) : List Ancestor → List Event
  | [] => []
  | ancestor :: rest =>
    if ancestor.branch ∈ settled then searchEvents a settled rest
    else
      a.readingEvents ancestor.decl ++
        if a.validator.participates ancestor.decl then
          searchEvents a (ancestor.branch :: settled) rest
        else
          detail "::walker" "skipping non-rebind override"
            [("ancestor", .shown ancestor.decl.describe)] :: searchEvents a settled rest

/-- A method of the given contract is compared with a declaration it overrides. -/
def comparisonEvents (a : Account) (m : MethodRef) (contract : RebindContract)
    (ancestor : MethodRef) : List Event :=
  a.buildingEvents ancestor ++
    match a.validator.contractOf ancestor with
    | .error _ =>
      [detail "" "ancestor has no contract" [("ancestor", .shown ancestor.describe)]]
    | .ok overridden =>
      (contract.mismatches overridden).map fun mismatch =>
        detail "" "rebind contract mismatch" [
          ("method", .shown m.describe), ("ancestor", .shown ancestor.describe),
          ("mismatch", .shown mismatch.describe)]

/-- A method is checked. -/
def methodEvents (a : Account) (m : MethodRef) : List Event :=
  a.readingEvents m ++
    if a.validator.participates m then
      a.buildingEvents m ++
        match a.validator.contractOf m with
        | .error _ => []
        | .ok contract =>
          let ancestors := a.validator.nearest m
          a.walkEvents m.owner ++ a.searchEvents [] (a.validator.lookup m) ++
            if a.validator.missesType contract ancestors then []
            else ancestors.flatMap (a.comparisonEvents m contract)
    else []

/-- A unit is validated. -/
def unitEvents (a : Account) (unit : SourceUnit) (index : Nat) : List Event :=
  let methods := unit.methods index
  let problems := methods.flatMap a.validator.methodProblems
  let verdict : Event :=
    { level := .debug, target := checkTarget, message := "validated unit"
      fields := [
        ("unit", .shown unit.path),
        ("checked", .number (methods.filter a.validator.participates).length),
        ("errors", .number problems.length), ("clean", .boolean problems.isEmpty)] }
  (methods.flatMap a.methodEvents ++ [verdict]).map fun e => { e with unit? := some unit.path }

/-- A program is checked, unit by unit. -/
def reportEvents (a : Account) : List Event :=
  a.validator.program.units.zipIdx.flatMap fun (unit, index) => a.unitEvents unit index

/-- The contracts of a program are listed. -/
def contractEvents (a : Account) : List Event :=
  a.validator.program.methods.flatMap fun m =>
    a.readingEvents m ++ if a.validator.participates m then a.buildingEvents m else []

end Account

end OverrideCheck
