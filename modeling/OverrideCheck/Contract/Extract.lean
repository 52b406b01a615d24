import OverrideCheck.Contract.Basic
import OverrideCheck.Contract.Markers

/-!
# Contracts of methods

The contract of a method is built from its annotations, unless they contradict each other: two
parameters may not both carry the type, and no parameter may carry it when the annotation names
it already.

* `Contradiction` — a way in which one method's annotations contradict each other;
* `AnnotationReader.roleOf`, `typeCarriers` — the parts parameters play;
* `contradictions` — every contradiction of a method, in a fixed order;
* `RebindContract.ofMethod?` — the contract, or the contradictions that stand in its way.

The contract of a method without the rebind annotation is built as if it were annotated without
a type. It is only asked for when the method takes part in the protocol.
-/

namespace OverrideCheck

/-- A way in which the annotations of one method contradict each other. -/
inductive Contradiction
  /-- More than one parameter carries the type. -/
  | tooManyTypeParams (positions : List Nat)
  /-- The annotation names a type and a parameter carries one. -/
  | typeParamAlreadyDefined (className : String) (index : Nat)
deriving DecidableEq, Repr

/-- The part a parameter plays, by its marker. -/
def AnnotationReader.roleOf (r : AnnotationReader) (p : Param) : ParamRole :=
  match r.markerOf p with
  | some .typeMarker => .typeCarrier
  | some .paramMarker => .rebindParam
  | none => .plain

/-- The positions, counted from `index`, of the roles that carry the type. -/
def typeCarriersFrom (index : Nat) : List ParamRole → List Nat
  | [] => []
  | role :: rest =>
    if role = .typeCarrier then index :: typeCarriersFrom (index + 1) rest
    else typeCarriersFrom (index + 1) rest

/-- The positions of the roles that carry the type, in ascending order. -/
def typeCarriers (roles : List ParamRole) : List Nat := typeCarriersFrom 0 roles

/-- What stands against a contract with the given explicit type and type-carrying positions. Too
many carriers are told before a type that is defined twice. -/
def contradictions (explicitType : Option String) (carriers : List Nat) : List Contradiction :=
  (if carriers.length > 1 then [.tooManyTypeParams carriers] else []) ++
  (match explicitType, carriers.head? with
    | some className, some index => [.typeParamAlreadyDefined className index]
    | _, _ => [])

/-- Where the type comes from, given the explicit type and the type-carrying positions. -/
def TypeSource.ofParts (explicitType : Option String) (carriers : List Nat) : TypeSource :=
  match explicitType, carriers.head? with
  | some className, _ => .explicit className
  | none, some index => .parameter index
  | none, none => .unspecified

/-- The type a method's rebind annotation names, if it has one that names one. -/
def AnnotationReader.explicitTypeOf (r : AnnotationReader) (m : MethodDecl) : Option String :=
  (r.rebindOf m).bind (·.explicitType)

/-- The contract of a method that is declared in the type `owner` of the file `file`, or every
contradiction among its annotations. -/
def RebindContract.ofMethod? (r : AnnotationReader) (owner : TypeDecl) (method : Located MethodDecl)
    (file : String) : Except (List Contradiction) RebindContract :=
  let roles := method.node.params.map r.roleOf
  let carriers := typeCarriers roles
  let explicitType := r.explicitTypeOf method.node
  match contradictions explicitType carriers with
  | [] => .ok
      { owner := owner.name
        signature := .ofMethod method.node
        typeSource := .ofParts explicitType carriers
        roles := roles
        location := ⟨file, method.position.line⟩ }
  | found => .error found

end OverrideCheck
