import OverrideCheck.Hierarchy.Walk

/-!
# Overridden declarations

A method overrides the declarations of the same erased signature in the supertypes of its type.
They are listed by branch, in the order the branch reaches their types. Finding them is a
capability: the check takes any function of the type `AncestorLookup`, and the type index
provides one.

* `MethodRef` — a method declaration together with where it stands;
* `Ancestor` — an overridden declaration and the branch it was reached on;
* `AncestorLookup` — a way of finding them;
* `TypeIndex.overridden` — the declarations overridden according to the walk over supertypes;
* `Program.methodsOfUnit`, `Program.methods` — every method of a unit and of a program.
-/

namespace OverrideCheck

/-- A method declaration, the type that declares it and the index of the unit of that type. -/
structure MethodRef where
  unitIndex : Nat
  owner : TypeDecl
  method : Located MethodDecl

namespace MethodRef

/-- The owner's name and the erased signature, as in `test.Impl.foo(int)`. -/
def describe (m : MethodRef) : String :=
  m.owner.name ++ "." ++ m.method.node.erasedSignature.text

end MethodRef

/-- An overridden declaration and the number of the branch it was reached on, counted from
zero. -/
structure Ancestor where
  branch : Nat
  decl : MethodRef

/-- A way of finding the declarations that a method overrides, taking part in the protocol or
not. -/
abbrev AncestorLookup := MethodRef → List Ancestor

/-- The declaration of the given erased signature in a type, if it has one. -/
def TypeEntry.declaration? (e : TypeEntry) (key : ErasedSignature) : Option MethodRef :=
  (e.decl.findMethod? key).map fun m => ⟨e.unitIndex, e.decl, m⟩

/-- The declarations that a method overrides, by branch and in walk order. -/
def TypeIndex.overridden (index : TypeIndex) : AncestorLookup := fun m =>
  (index.branches m.owner).zipIdx.flatMap fun (types, branch) =>
    types.filterMap fun e =>
      (e.declaration? m.method.node.erasedSignature).map fun decl => ⟨branch, decl⟩

/-- The methods declared in a unit, in type and declaration order. -/
def SourceUnit.methods (unit : SourceUnit) (unitIndex : Nat) : List MethodRef :=
  unit.types.flatMap fun t => t.node.methods.map fun m => ⟨unitIndex, t.node, m⟩

/-- The methods of a program, in unit, type and declaration order. -/
def Program.methods (p : Program) : List MethodRef :=
  p.units.zipIdx.flatMap fun (unit, index) => unit.methods index

end OverrideCheck
