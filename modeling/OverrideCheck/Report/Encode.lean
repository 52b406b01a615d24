import OverrideCheck.Contract.Basic
import OverrideCheck.Program.Encode
import OverrideCheck.Report.Diagnostic

/-!
# Writing reports

The JSON values of diagnostics and contracts, as they are printed for other tools.

* `Diagnostic.toJson`, `diagnosticsText` — diagnostics;
* `RebindContract.toJson`, `contractsText` — contracts.
-/

namespace OverrideCheck

open Json (Value)

/-- The word for a severity. -/
def Severity.word : Severity → String
  | .error => "error"

/-- The word for a verdict. -/
def Verdict.word : Verdict → String
  | .clean => "clean"
  | .failed => "failed"

/-- A diagnostic. -/
def Diagnostic.toJson (d : Diagnostic) : Value :=
  .object [("severity", .string d.severity.word), ("unit", .string d.unit),
    ("span", d.position.toJson), ("message", .string d.message)]

/-- The text of a list of diagnostics. -/
def diagnosticsText (ds : List Diagnostic) : String :=
  (Value.array (ds.map Diagnostic.toJson)).pretty

/-- A signature as it is written. -/
def MethodSignature.toJson (s : MethodSignature) : Value :=
  .object [("name", .string s.name), ("params", .array (s.params.map fun t => .string t.text)),
    ("return_type", .string s.returnType.text)]

/-- A type source: an object that names its kind. -/
def TypeSource.toJson : TypeSource → Value
  | .explicit className =>
    .object [("kind", .string "explicit_type"), ("class", .string className)]
  | .parameter index =>
    .object [("kind", .string "parameter_supplied"), ("index", .integer index)]
  | .unspecified => .object [("kind", .string "unspecified")]

/-- The word for a role. -/
def ParamRole.word : ParamRole → String
  | .plain => "plain"
  | .typeCarrier => "type_carrier"
  | .rebindParam => "rebind_param"

/-- A contract. -/
def RebindContract.toJson (c : RebindContract) : Value :=
  .object [("owner", .string c.owner), ("signature", c.signature.toJson),
    ("type_source", c.typeSource.toJson),
    ("param_roles", .array (c.roles.map fun role => .string role.word)),
    ("location",
      .object [("file", .string c.location.file), ("line", .integer c.location.line.toNat)])]

/-- The text of a list of contracts. -/
def contractsText (cs : List RebindContract) : String :=
  (Value.array (cs.map RebindContract.toJson)).pretty

end OverrideCheck
