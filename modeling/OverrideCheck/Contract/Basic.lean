import OverrideCheck.Program.Basic

/-!
# Rebind contracts

A rebind contract is the canonical account of one method's rebind semantics: where the target
type comes from and which part each parameter plays. It is built once per method; everything
after that works on contracts and never looks at annotations again.

* `TypeSource` — where the target type of a rebinding comes from;
* `ParamRole` — the part a parameter plays;
* `MethodSignature` — name, parameter types and return type as written;
* `RebindContract` — the account of one method, with its owner and location.

Owner, signature and location identify a contract in reports. They never take part in a
comparison.
-/

namespace OverrideCheck

/-- Where the target type of a rebinding comes from. -/
inductive TypeSource
  /-- Named on the rebind annotation itself. -/
  | explicit (className : String)
  /-- Supplied at the call site, through the parameter at this position (from zero). -/
  | parameter (index : Nat)
  | unspecified
deriving DecidableEq, Repr, Inhabited

/-- How a type source is named in messages; positions are shown from one. -/
def TypeSource.describe : TypeSource → String
  | .explicit className => "explicit type " ++ className
  | .parameter index => "type parameter #" ++ Nat.repr (index + 1)
  | .unspecified => "unspecified type"

/-- The part a parameter plays in a rebinding. -/
inductive ParamRole
  | plain
  | typeCarrier
  | rebindParam
deriving DecidableEq, Repr, Inhabited

/-- How a role is named in messages. -/
def ParamRole.describe : ParamRole → String
  | .plain => "plain"
  | .typeCarrier => "type carrier"
  | .rebindParam => "rebind param"

/-- A method's name, parameter types and return type as written. -/
structure MethodSignature where
  name : String
  params : List WrittenType
  returnType : WrittenType
deriving DecidableEq, Repr

namespace MethodSignature

/-- The signature of a declaration. -/
def ofMethod (m : MethodDecl) : MethodSignature :=
  ⟨m.name, m.params.map (·.type), m.returnType⟩

/-- The signature after erasure. -/
def erased (s : MethodSignature) : ErasedSignature := ⟨s.name, s.params.map (·.erased)⟩

/-- A signature taken from a declaration erases as the declaration does. -/
@[simp] theorem erased_ofMethod (m : MethodDecl) : (ofMethod m).erased = m.erasedSignature := by
  simp [ofMethod, erased, MethodDecl.erasedSignature, Function.comp_def]

end MethodSignature

/-- The file and line a contract is reported at. -/
structure SourceLocation where
  file : String
  line : UInt32
deriving DecidableEq, Repr

/-- The canonical account of one method's rebind semantics. -/
structure RebindContract where
  /-- Qualified name of the declaring type. -/
  owner : String
  signature : MethodSignature
  typeSource : TypeSource
  /-- One role per parameter, in order. -/
  roles : List ParamRole
  location : SourceLocation
deriving DecidableEq, Repr

end OverrideCheck
