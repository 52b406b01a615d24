import OverrideCheck.Settings.Basic
import OverrideCheck.Program.Basic

/-!
# Reading the annotation family

A method takes part in the rebind protocol when it carries the rebind annotation or when one of
its parameters carries a marker. How annotations are recognised is a capability of its own, so
that the rest of the check can be run, and reasoned about, with any other way of reading them. A
reader may also have its own opinion on which methods take part.

* `RebindAnnotation`, `ParamMarker` — what is read off a declaration;
* `AnnotationReader` — a way of reading them, and of telling which methods take part;
* `AnnotationNames.reader` — recognition by configured qualified names;
* `AnnotationNames.ignoredValue?` — a value in the place of the explicit type that is no class.
-/

namespace OverrideCheck

/-- What a rebind annotation on a method says. -/
structure RebindAnnotation where
  /-- The class it names as the target type, if it names one. -/
  explicitType : Option String
deriving DecidableEq, Repr

/-- The marker on a parameter. -/
inductive ParamMarker
  | typeMarker
  | paramMarker
deriving DecidableEq, Repr

/-- A way of reading the rebind annotation family off declarations. -/
structure AnnotationReader where
  /-- The rebind annotation of a method. -/
  rebindOf : MethodDecl → Option RebindAnnotation
  /-- The marker of a parameter; one that carries both counts as a type marker. -/
  markerOf : Param → Option ParamMarker
  /-- A method takes part in the protocol. Unless a reader has it otherwise, it does when it is
  annotated itself or marks a parameter. -/
  participates : MethodDecl → Bool :=
    fun m => (rebindOf m).isSome || m.params.any fun p => (markerOf p).isSome

/-- The first annotation of a name. -/
def findAnnotation? (name : String) (annotations : List Annotation) : Option Annotation :=
  annotations.find? fun a => a.name == name

namespace AnnotationNames

/-- The value of the member that holds the explicit type. -/
def typeValue? (n : AnnotationNames) (a : Annotation) : Option AnnotationValue :=
  a.values.find? n.typeMember

/-- The class a rebind annotation names. A value that is no class literal names none, and neither
does the class that stands for "not given". -/
def explicitType? (n : AnnotationNames) (a : Annotation) : Option String :=
  match n.typeValue? a with
  | some (.classLiteral className) =>
    if n.defaultType = some className then none else some className
  | _ => none

/-- The rebind annotation of a method, by its configured name. -/
def rebindOf? (n : AnnotationNames) (m : MethodDecl) : Option RebindAnnotation :=
  (findAnnotation? n.rebind m.annotations).map fun a => ⟨n.explicitType? a⟩

/-- The marker of a parameter, by the configured names; the type marker is looked for first. -/
def markerOf? (n : AnnotationNames) (p : Param) : Option ParamMarker :=
  if (findAnnotation? n.typeParam p.annotations).isSome then some .typeMarker
  else if (findAnnotation? n.rebindParam p.annotations).isSome then some .paramMarker
  else none

/-- Recognition of the family by configured qualified names. -/
def reader (n : AnnotationNames) : AnnotationReader where
  rebindOf := n.rebindOf?
  markerOf := n.markerOf?

/-- Under configured names, a method takes part when it is annotated itself or marks a parameter. -/
theorem participates_reader (n : AnnotationNames) (m : MethodDecl) :
    n.reader.participates m =
      ((n.reader.rebindOf m).isSome || m.params.any fun p => (n.reader.markerOf p).isSome) :=
  rfl

/-- The value a method's rebind annotation gives in the place of the explicit type when that
value is no class literal, and so is passed over. -/
def ignoredValue? (n : AnnotationNames) (m : MethodDecl) : Option AnnotationValue :=
  match (findAnnotation? n.rebind m.annotations).bind n.typeValue? with
  | some (.classLiteral _) => none
  | other => other

end AnnotationNames

end OverrideCheck
