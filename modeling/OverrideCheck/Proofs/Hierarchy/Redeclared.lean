import OverrideCheck.Proofs.Hierarchy.Lockstep

/-!
# Types that declare other methods

The walk over the supertypes of a type reads names and never a method. So a program may exchange
the methods of its types for others, type by type, and keep its hierarchy: it is accepted if it was,
and a type has above it what it had above it, each supertype with its methods exchanged.

* `Program.redeclare` — a program, each of its types with the methods that are given for it;
* `Program.typeEntries_redeclare`, `SourceUnit.path_redeclare` — what it declares, and where;
* `Program.distinctTypes_redeclare_iff` — it is accepted if the program was;
* `redeclare_agreement`, `TypeIndex.branches_redeclare` — the two indexes are walked in lockstep,
  each entry beside its redeclared self;
* `TypeIndex.overridden_redeclare` — so what a method overrides is a matter of what each supertype
  now declares.
-/

namespace OverrideCheck

/-- The type of the unit at index `k` with the methods that are given for it. -/
def TypeDecl.redeclare (g : Nat → TypeDecl → List (Located MethodDecl)) (k : Nat) (t : TypeDecl) :
    TypeDecl :=
  { t with methods := g k t }

/-- The unit at index `k`, its types with other methods. -/
def SourceUnit.redeclare (g : Nat → TypeDecl → List (Located MethodDecl)) (k : Nat)
    (u : SourceUnit) : SourceUnit :=
  { u with types := u.types.map fun t => ⟨t.node.redeclare g k, t.position⟩ }

/-- A program, its types with other methods. -/
def Program.redeclare (g : Nat → TypeDecl → List (Located MethodDecl)) (p : Program) : Program :=
  ⟨p.units.mapIdx fun k u => u.redeclare g k⟩

/-- An entry of a program, its type with other methods. -/
def TypeEntry.redeclare (g : Nat → TypeDecl → List (Located MethodDecl)) (e : TypeEntry) :
    TypeEntry :=
  ⟨e.unitIndex, e.decl.redeclare g e.unitIndex⟩

variable {g : Nat → TypeDecl → List (Located MethodDecl)} {p : Program}

/-! ### What is declared -/

/-- Numbering a list after a change that knows the numbers changes the numbered list. -/
theorem zipIdx_mapIdx {α β : Type} (f : Nat → α → β) (xs : List α) :
    (xs.mapIdx f).zipIdx = xs.zipIdx.map fun x => (f x.2 x.1, x.2) := by
  refine List.ext_getElem? fun k => ?_
  simp [List.getElem?_zipIdx, List.getElem?_mapIdx, Function.comp_def]

@[simp] theorem SourceUnit.path_redeclare (k : Nat) (u : SourceUnit) :
    (u.redeclare g k).path = u.path := by
  obtain ⟨path?, types, source?⟩ := u
  cases path? with
  | some path => rfl
  | none =>
    cases types with
    | nil => rfl
    | cons first rest => rfl

/-- The entries of the program are those of the old one, with other methods. -/
theorem Program.typeEntries_redeclare :
    (p.redeclare g).typeEntries = p.typeEntries.map (·.redeclare g) := by
  rw [typeEntries, typeEntries, redeclare, zipIdx_mapIdx, List.flatMap_map, List.map_flatMap]
  refine List.flatMap_congr ?_
  rintro ⟨u, k⟩ -
  simp only [SourceUnit.redeclare, List.map_map]
  rfl

theorem SourceUnit.methods_redeclare (k : Nat) (u : SourceUnit) :
    (u.redeclare g k).methods k =
      u.types.flatMap fun t => (g k t.node).map fun d => ⟨k, t.node.redeclare g k, d⟩ := by
  rw [methods, redeclare, List.flatMap_map]
  rfl

/-- The methods of the program are those of its units, under the numbers these had. -/
theorem Program.methods_redeclare :
    (p.redeclare g).methods = p.units.zipIdx.flatMap fun (u, k) => (u.redeclare g k).methods k := by
  rw [methods, redeclare, zipIdx_mapIdx, List.flatMap_map]

theorem Program.map_name_types_redeclare :
    (p.redeclare g).types.map (·.name) = p.types.map (·.name) := by
  rw [← map_name_typeEntries, ← map_name_typeEntries, typeEntries_redeclare, List.map_map]
  rfl

/-! ### The index -/

theorem Program.distinctTypes_redeclare_iff : (p.redeclare g).DistinctTypes ↔ p.DistinctTypes := by
  rw [DistinctTypes, DistinctTypes, map_name_types_redeclare]

section Accepted

variable {i j : TypeIndex} (hi : TypeIndex.ofProgram? p = .ok i)
  (hj : TypeIndex.ofProgram? (p.redeclare g) = .ok j)

include hi hj

/-- The indexes before and after are walked in lockstep. -/
theorem redeclare_agreement : Agreement (fun e e' => e' = e.redeclare g) (fun _ => True) i j := by
  -- an entry keeps its name, its superclass and its interfaces; the walk reads nothing else
  refine .of_forall₂ ?_ ?_ ?_ ?_
  · rintro e _ rfl
    rfl
  · rintro e _ rfl
    rfl
  · rintro e _ rfl
    rfl
  · rw [TypeIndex.entries_of_ofProgram? hi, TypeIndex.entries_of_ofProgram? hj,
      Program.typeEntries_redeclare, List.forall₂_map_right_iff, List.forall₂_same]
    exact fun _ _ => rfl

/-- On the branches of a type stand the types that stood there, with other methods. -/
theorem TypeIndex.branches_redeclare (k : Nat) (t : TypeDecl) :
    j.branches (t.redeclare g k) = (i.branches t).map fun es => es.map (·.redeclare g) := by
  have hbranches := (redeclare_agreement hi hj).branchTypesFrom [t.name] t.directSupertypes
    fun _ _ => trivial
  rw [branches_eq, branches_eq, ← List.forall₂_eq_eq_eq, List.forall₂_map_right_iff]
  -- to be related is to be equal here, since an entry has one redeclared self
  refine hbranches.flip.imp fun fs es hes => ?_
  rw [← List.forall₂_eq_eq_eq, List.forall₂_map_right_iff]
  exact hes.flip

/-- What a method overrides in the new program is read off the branches of the old one, type by
type: it is what the redeclared types declare under its signature. -/
theorem TypeIndex.overridden_redeclare {m n : MethodRef}
    (howner : n.owner = m.owner.redeclare g m.unitIndex)
    (hkey : n.method.node.erasedSignature = m.method.node.erasedSignature) :
    j.overridden n = (i.branches m.owner).zipIdx.flatMap fun (es, branch) =>
      es.filterMap fun e => ((e.redeclare g).declaration? m.method.node.erasedSignature).map
        fun decl => ⟨branch, decl⟩ := by
  rw [overridden, howner, hkey, branches_redeclare hi hj, List.zipIdx_map, List.flatMap_map]
  refine List.flatMap_congr ?_
  rintro ⟨es, branch⟩ -
  simp only [Prod.map, List.filterMap_map]
  rfl

end Accepted

end OverrideCheck
