/-!
# Settings

What a run can be told: the names of the annotation family it looks for, and what to do with a
rebind annotation that names no type.

* `AnnotationNames` — the qualified names of the family;
* `UnspecifiedPolicy` — the verdict on a contract whose type source is unspecified;
* `Settings` — both, with the defaults that hold when nothing is said.

`Settings.parallel` is accepted and carried along. Units are independent of each other, so it
never shows in a result.
-/

namespace OverrideCheck

/-- Names of the rebind annotation family. -/
structure AnnotationNames where
  /-- The annotation that puts a method under the protocol. -/
  rebind : String := "com.google.gwt.core.shared.Rebind"
  /-- The marker of a parameter that carries the target type. -/
  typeParam : String := "com.google.gwt.core.shared.Rebind.Type"
  /-- The marker of a parameter that is passed on to the rebinding. -/
  rebindParam : String := "com.google.gwt.core.shared.Rebind.Param"
  /-- The member of the rebind annotation that holds the explicit type. -/
  typeMember : String := "type"
  /-- The explicit type that stands for "not given". -/
  defaultType : Option String := none
deriving DecidableEq, Repr, Inhabited

/-- What to do with a rebind method that names no type at all. -/
inductive UnspecifiedPolicy
  | allow
  | deny
  /-- Legal on a declaration that overrides nothing, an error on an override. -/
  | denyOnOverride
deriving DecidableEq, Repr, Inhabited

namespace UnspecifiedPolicy

/-- Every policy, in the order they are listed to the user. -/
def all : List UnspecifiedPolicy := [.allow, .deny, .denyOnOverride]

/-- The word for a policy in a settings file. -/
def word : UnspecifiedPolicy → String
  | .allow => "allow"
  | .deny => "deny"
  | .denyOnOverride => "deny-on-override"

/-- Whether the policy refuses an unspecified type, given whether the method overrides a
participating declaration. -/
def rejects : UnspecifiedPolicy → Bool → Bool
  | .allow, _ => false
  | .deny, _ => true
  | .denyOnOverride, overrides => overrides

end UnspecifiedPolicy

/-- What a run is told. -/
structure Settings where
  names : AnnotationNames := {}
  unspecified : UnspecifiedPolicy := .allow
  /-- Whether units may be taken at once; it has no bearing on any result. -/
  parallel : Bool := true
deriving DecidableEq, Repr, Inhabited

end OverrideCheck
