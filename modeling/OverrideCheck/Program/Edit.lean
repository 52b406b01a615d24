import OverrideCheck.Program.Basic

/-!
# Building and editing declarations

Declarations can be put together step by step (`TypeDecl.extending`, `TypeDecl.implementing`,
`TypeDecl.withMethod`, `Annotation.withMember`) and a program can be changed in place: a unit gets
another path, and the first type of a name gets another superclass, one more interface, one more
method or none at all. An edit of a unit or a type that is not there answers `none`.

* `Program.setPath?` — gives a unit another path;
* `Program.updateType?` — changes the first declaration of a type name.
-/

namespace OverrideCheck

namespace Annotation

/-- The annotation with a value given to one more member. -/
def withMember (a : Annotation) (member : String) (value : AnnotationValue) : Annotation :=
  { a with values := a.values.insert member value }

end Annotation

namespace TypeDecl

/-- The type with the given superclass, in place of any other. -/
def extending (t : TypeDecl) (superclass : String) : TypeDecl :=
  { t with superclass := some superclass }

/-- The type with one more interface, after the others. -/
def implementing (t : TypeDecl) (interface : String) : TypeDecl :=
  { t with interfaces := t.interfaces ++ [interface] }

/-- The type with one more method, after the others. -/
def withMethod (t : TypeDecl) (position : Position) (method : MethodDecl) : TypeDecl :=
  { t with methods := t.methods ++ [⟨method, position⟩] }

end TypeDecl

/-- Changes the first type of the given name in a list of declarations. -/
def updateFirstType? (name : String) (change : TypeDecl → TypeDecl) :
    List (Located TypeDecl) → Option (List (Located TypeDecl))
  | [] => none
  | t :: rest =>
    if t.node.name = name then some ({ t with node := change t.node } :: rest)
    else (updateFirstType? name change rest).map (t :: ·)

/-- Changes the first type of the given name in a list of units. -/
def updateFirstUnit? (name : String) (change : TypeDecl → TypeDecl) :
    List SourceUnit → Option (List SourceUnit)
  | [] => none
  | u :: rest =>
    match updateFirstType? name change u.types with
    | some types => some ({ u with types := types } :: rest)
    | none => (updateFirstUnit? name change rest).map (u :: ·)

namespace Program

/-- Changes the first declaration of a type name, units in order. -/
def updateType? (p : Program) (name : String) (change : TypeDecl → TypeDecl) : Option Program :=
  (updateFirstUnit? name change p.units).map fun units => ⟨units⟩

/-- Gives the unit at an index another path, or none of its own. -/
def setPath? (p : Program) (index : Nat) (path? : Option String) : Option Program :=
  if index < p.units.length then
    some ⟨p.units.modify index fun u => { u with path? := path? }⟩
  else none

end Program

end OverrideCheck
