import OverrideCheck.Program.Position
import OverrideCheck.Program.Erasure
import OverrideCheck.Program.Annotation

/-!
# Declarations of a program

The resolved declarations that a front-end hands over for one run: source units, the types
declared in them, and the methods of those types. Nothing here looks at program text; a unit may
carry its source, which is used for showing diagnostics and nothing else.

* `Param`, `MethodDecl`, `TypeDecl` — what is declared;
* `SourceUnit` — one source file's types, with `SourceUnit.path` as the name it is reported under;
* `Program` — every unit of a run, in the order they were given;
* `TypeDecl.findMethod?` — the method of a type with a given erased signature;
* `pathOfType` — the file a top-level type of that name lives in.
-/

namespace OverrideCheck

/-- A formal parameter. -/
structure Param where
  name : String
  type : WrittenType
  annotations : List Annotation := []
deriving Inhabited

/-- A method declaration. -/
structure MethodDecl where
  name : String
  params : List Param := []
  returnType : WrittenType := .void
  annotations : List Annotation := []
deriving Inhabited

/-- A type is a class or an interface. -/
inductive TypeKind
  | classKind
  | interfaceKind
deriving DecidableEq, Repr, Inhabited

/-- A class or interface declaration. -/
structure TypeDecl where
  /-- Fully qualified name. -/
  name : String
  kind : TypeKind
  superclass : Option String := none
  /-- The interfaces a class implements, or those an interface extends. -/
  interfaces : List String := []
  methods : List (Located MethodDecl) := []
deriving Inhabited

/-- The resolved declarations of one source file. -/
structure SourceUnit where
  /-- Path below the source root; taken from the first type when absent. -/
  path? : Option String := none
  types : List (Located TypeDecl) := []
  /-- The text the declarations were resolved from, if the front-end passed it on. -/
  source? : Option String := none
deriving Inhabited

/-- Every unit of one run. -/
structure Program where
  units : List SourceUnit := []
deriving Inhabited

namespace MethodDecl

/-- The name and the erased parameter types. Neither the return type nor the parameters' names
take part. -/
def erasedSignature (m : MethodDecl) : ErasedSignature :=
  ⟨m.name, m.params.map (·.type.erased)⟩

end MethodDecl

namespace TypeDecl

/-- The first method declared in the type with the given erased signature. -/
def findMethod? (t : TypeDecl) (key : ErasedSignature) : Option (Located MethodDecl) :=
  t.methods.find? (fun m => decide (m.node.erasedSignature = key))

/-- The direct supertypes of a type: the superclass, then the interfaces in order. -/
def directSupertypes (t : TypeDecl) : List String := t.superclass.toList ++ t.interfaces

end TypeDecl

/-- The file of a type: the dots of its name are folders, and a nested type lives in the file of
the type around it, whose name ends where the first `$` stands. -/
def pathOfType (qualifiedName : String) : String :=
  let topLevel := qualifiedName.toList.takeWhile (· != '$')
  String.ofList (topLevel.map fun c => if c = '.' then '/' else c) ++ ".java"

namespace SourceUnit

/-- The path a unit is reported under: the one it was given, else the file of its first type. -/
def path (u : SourceUnit) : String :=
  match u.path?, u.types with
  | some path, _ => path
  | none, first :: _ => pathOfType first.node.name
  | none, [] => "<unknown>"

end SourceUnit

namespace Program

/-- The paths of the units, in order. -/
def paths (p : Program) : List String := p.units.map (·.path)

/-- The units of two programs, those of the first one first. -/
def merge (p q : Program) : Program := ⟨p.units ++ q.units⟩

/-- The program without the source texts of its units. -/
def dropSources (p : Program) : Program := ⟨p.units.map fun u => { u with source? := none }⟩

end Program

end OverrideCheck
