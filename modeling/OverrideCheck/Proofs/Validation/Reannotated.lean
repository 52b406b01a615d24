import OverrideCheck.Proofs.Hierarchy.Completeness
import OverrideCheck.Proofs.Hierarchy.Redeclared
import OverrideCheck.Proofs.Validation.Outcome

/-!
# Programs annotated anew

A program whose annotations are exchanged for others keeps its types, its hierarchy and the
signatures of its methods. If it also keeps who takes part in the protocol, then its methods
override the same declarations as before and have the same nearest participating ancestors; what
the annotations say about the type is free to change. This is how a question about the check
can be asked of the shape of a program alone, over every way of annotating it.

* `NewAnnotations` — new annotations for every method, with the same participants;
* `Program.reannotate`, `MethodRef.reannotate` — a program and its methods under them;
* `Program.methods_reannotate` — the methods of the new program;
* `NewAnnotations.exists_validator` — the new program is accepted if the old one was;
* `NewAnnotations.lookup_eq`, `NewAnnotations.nearest_eq` — what its methods override, and what they
  are compared with, is what it was.

The new program is one whose types declare other methods, so that what the hierarchy keeps is known
already (`Program.reannotate_eq_redeclare`); what is left is to find each method under its signature
again.
-/

namespace OverrideCheck

/-- The method without any of its annotations. -/
def MethodDecl.bare (d : MethodDecl) : MethodDecl :=
  { d with annotations := [], params := d.params.map fun q => { q with annotations := [] } }

/-- Annotations have no part in a signature. -/
theorem MethodDecl.erasedSignature_bare (d : MethodDecl) :
    d.bare.erasedSignature = d.erasedSignature := by
  simp [bare, erasedSignature, Function.comp_def]

/-- Other annotations for methods, with the same methods taking part in the protocol. -/
structure NewAnnotations (r : AnnotationReader) where
  decl : MethodRef → MethodDecl
  /-- Nothing but annotations is changed. -/
  bare : ∀ m, (decl m).bare = m.method.node.bare
  /-- Whoever took part still does, and nobody else. -/
  participates : ∀ m, r.participates (decl m) = r.participates m.method.node

/-- A type of the unit at index `k`, its methods exchanged. -/
def TypeDecl.reannotate (f : MethodRef → MethodDecl) (k : Nat) (t : TypeDecl) : TypeDecl :=
  { t with methods := t.methods.map fun d => ⟨f ⟨k, t, d⟩, d.position⟩ }

/-- A program, its methods exchanged. -/
def Program.reannotate (f : MethodRef → MethodDecl) (p : Program) : Program :=
  ⟨p.units.mapIdx fun k u =>
    { u with types := u.types.map fun t => ⟨t.node.reannotate f k, t.position⟩ }⟩

/-- An entry of a program, its methods exchanged. -/
def TypeEntry.reannotate (f : MethodRef → MethodDecl) (e : TypeEntry) : TypeEntry :=
  ⟨e.unitIndex, e.decl.reannotate f e.unitIndex⟩

/-- The exchanged methods of a type, as the methods that it declares anew. -/
def exchangedMethods (f : MethodRef → MethodDecl) (k : Nat) (t : TypeDecl) :
    List (Located MethodDecl) :=
  t.methods.map fun d => ⟨f ⟨k, t, d⟩, d.position⟩

/-- A method of a program and its owner, exchanged. -/
def MethodRef.reannotate (f : MethodRef → MethodDecl) (m : MethodRef) : MethodRef :=
  ⟨m.unitIndex, m.owner.reannotate f m.unitIndex, ⟨f m, m.method.position⟩⟩

/-! ### What a program declares under other annotations -/

section Declared

variable {p : Program} {f : MethodRef → MethodDecl}

theorem Program.reannotate_eq_redeclare :
    p.reannotate f = p.redeclare (exchangedMethods f) := rfl

theorem TypeEntry.reannotate_eq_redeclare (e : TypeEntry) :
    e.reannotate f = e.redeclare (exchangedMethods f) := rfl

/-- The methods of the program are those of the old one, exchanged. -/
theorem Program.methods_reannotate :
    (p.reannotate f).methods = p.methods.map (·.reannotate f) := by
  rw [reannotate_eq_redeclare, methods_redeclare, methods, List.map_flatMap]
  refine List.flatMap_congr ?_
  rintro ⟨u, k⟩ -
  change (u.redeclare (exchangedMethods f) k).methods k = (u.methods k).map _
  rw [SourceUnit.methods_redeclare, SourceUnit.methods, List.map_flatMap]
  refine List.flatMap_congr fun t _ => ?_
  rw [exchangedMethods, List.map_map, List.map_map]
  rfl

theorem Program.mem_methods_reannotate_iff {n : MethodRef} :
    n ∈ (p.reannotate f).methods ↔ ∃ m ∈ p.methods, n = m.reannotate f := by
  rw [methods_reannotate, List.mem_map]
  simp only [eq_comm]

end Declared

namespace NewAnnotations

variable {r : AnnotationReader} {p : Program}

/-- New annotations leave the signature as it was. -/
theorem erasedSignature_decl (f : NewAnnotations r) (m : MethodRef) :
    (f.decl m).erasedSignature = m.method.node.erasedSignature := by
  rw [← (f.decl m).erasedSignature_bare, f.bare, MethodDecl.erasedSignature_bare]

/-- An entry finds under a signature what it found before, exchanged. -/
theorem declaration?_reannotate (f : NewAnnotations r) (e : TypeEntry) (key : ErasedSignature) :
    (e.reannotate f.decl).declaration? key = (e.declaration? key).map (·.reannotate f.decl) := by
  -- the search looks at signatures only, so it stops at the same place
  have hfind : (e.decl.reannotate f.decl e.unitIndex).findMethod? key =
      (e.decl.findMethod? key).map fun d => ⟨f.decl ⟨e.unitIndex, e.decl, d⟩, d.position⟩ := by
    rw [TypeDecl.findMethod?, TypeDecl.findMethod?, TypeDecl.reannotate, List.find?_map]
    simp only [Function.comp_def, f.erasedSignature_decl]
  rw [TypeEntry.declaration?, TypeEntry.declaration?, TypeEntry.reannotate, hfind, Option.map_map,
    Option.map_map]
  rfl

/-- The program under new annotations has a validator. -/
theorem exists_validator {settings : Settings} {v : Validator} (f : NewAnnotations r)
    (hv : Validator.ofProgram? p settings = .ok v) :
    ∃ w, Validator.ofProgram? (p.reannotate f.decl) settings = .ok w := by
  -- a program is refused for its type names alone, and these stay
  rw [Validator.exists_ofProgram?_iff, Program.reannotate_eq_redeclare,
    Program.distinctTypes_redeclare_iff]
  exact Validator.exists_ofProgram?_iff.1 ⟨v, hv⟩

section Accepted

variable {settings : Settings} {v w : Validator} (f : NewAnnotations settings.names.reader)
  (hv : Validator.ofProgram? p settings = .ok v)
  (hw : Validator.ofProgram? (p.reannotate f.decl) settings = .ok w)

include hv hw

/-- A method takes part if it did before. -/
theorem participates_reannotate (m : MethodRef) :
    w.participates (m.reannotate f.decl) = v.participates m := by
  rw [Validator.participates_of_ofProgram? hv, Validator.participates_of_ofProgram? hw]
  exact f.participates m

/-- What a method overrides is what it overrode, exchanged. -/
theorem lookup_eq (m : MethodRef) :
    w.lookup (m.reannotate f.decl) =
      (v.lookup m).map fun a => ⟨a.branch, a.decl.reannotate f.decl⟩ := by
  -- two searches in two indexes; `overridden_redeclare` says the second one in terms of the first
  obtain ⟨i, hi, rfl⟩ := Validator.ofProgram?_eq_ok_iff.1 hv
  obtain ⟨j, hj, rfl⟩ := Validator.ofProgram?_eq_ok_iff.1 hw
  rw [Program.reannotate_eq_redeclare] at hj
  have hbranches := TypeIndex.overridden_redeclare hi hj (m := m) (n := m.reannotate f.decl) rfl
    (f.erasedSignature_decl m)
  simp only [← TypeEntry.reannotate_eq_redeclare, f.declaration?_reannotate] at hbranches
  change j.overridden _ = (i.overridden m).map _
  -- the same types are looked at on both sides, and what is found in each is exchanged afterwards
  rw [hbranches, TypeIndex.overridden, List.map_flatMap]
  refine List.flatMap_congr ?_
  rintro ⟨es, branch⟩ -
  simp only [List.map_filterMap, Option.map_map]
  rfl

/-- What a method is compared with is what it was compared with, exchanged. -/
theorem nearest_eq (m : MethodRef) :
    w.nearest (m.reannotate f.decl) = (v.nearest m).map (·.reannotate f.decl) := by
  rw [Validator.nearest, Validator.nearest, f.lookup_eq hv hw]
  exact nearestParticipating_map (f.participates_reannotate hv hw) _

end Accepted

end NewAnnotations

end OverrideCheck
