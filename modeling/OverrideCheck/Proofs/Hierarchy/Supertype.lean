import Mathlib.Data.List.Nodup
import Mathlib.Logic.Relation
import OverrideCheck.Hierarchy.Overridden

/-!
# Supertypes of declared types

The supertype relation of a program, said of its declarations and without any walk: `sup` is the
superclass of `sub`, or one of its interfaces, when `sub` names it there and both are types of the
program. Nothing keeps the relation from running in circles, so reachability is stated with
`Relation.TransGen` and `Relation.ReflTransGen` of it.

* `Program.types` — the declared types, in unit and declaration order;
* `Program.Extends`, `Program.Implements`, `Program.DirectSupertype` — the single steps.

A program whose types bear different names has an index, and what the index knows about a name is
then exactly what the program declares under it (`TypeIndex.find?_eq_some_iff`,
`TypeIndex.mem_types_iff`). Later modules pass between the two through these lemmas and never open
the index again.
-/

namespace OverrideCheck

/-- What is collected from a numbered list without its numbers is collected from the list. -/
theorem flatMap_fst_zipIdx {α β : Type} (f : α → List β) (xs : List α) (start : Nat) :
    ((xs.zipIdx start).flatMap fun x => f x.1) = xs.flatMap f := by
  rw [← List.flatMap_map, List.zipIdx_map_fst]

/-- A method of a unit is declared in one of its types. -/
theorem SourceUnit.mem_methods_iff {u : SourceUnit} {i : Nat} {m : MethodRef} :
    m ∈ u.methods i ↔ m.unitIndex = i ∧ ∃ t ∈ u.types, t.node = m.owner ∧
      m.method ∈ m.owner.methods := by
  obtain ⟨k, owner, d⟩ := m
  simp only [methods, List.mem_flatMap, List.mem_map, MethodRef.mk.injEq]
  constructor
  · rintro ⟨t, ht, e, he, rfl, rfl, rfl⟩
    exact ⟨rfl, t, ht, rfl, he⟩
  · rintro ⟨rfl, t, ht, rfl, hd⟩
    exact ⟨t, ht, d, hd, rfl, rfl, rfl⟩

namespace Program

/-- The types a program declares, in unit and declaration order. -/
def types (p : Program) : List TypeDecl := p.units.flatMap fun u => u.types.map (·.node)

/-- `sup` is the superclass of `sub`, and both are types of the program. -/
structure Extends (p : Program) (sub sup : TypeDecl) : Prop where
  sub_mem : sub ∈ p.types
  sup_mem : sup ∈ p.types
  named : sub.superclass = some sup.name

/-- `sup` is an interface that `sub` implements or extends, and both are types of the program. -/
structure Implements (p : Program) (sub sup : TypeDecl) : Prop where
  sub_mem : sub ∈ p.types
  sup_mem : sup ∈ p.types
  named : sup.name ∈ sub.interfaces

/-- One step from a type of the program to a supertype that it names. -/
def DirectSupertype (p : Program) (sub sup : TypeDecl) : Prop :=
  p.Extends sub sup ∨ p.Implements sub sup

/-- Types that bear one name are one type. -/
def DistinctTypes (p : Program) : Prop := (p.types.map (·.name)).Nodup

instance (p : Program) : Decidable p.DistinctTypes := inferInstanceAs (Decidable (List.Nodup _))

/-- A step is to a type of the program that is named among the direct supertypes. -/
theorem directSupertype_iff {p : Program} {sub sup : TypeDecl} :
    p.DirectSupertype sub sup ↔
      sub ∈ p.types ∧ sup ∈ p.types ∧ sup.name ∈ sub.directSupertypes := by
  simp only [DirectSupertype, TypeDecl.directSupertypes, List.mem_append, Option.mem_toList]
  constructor
  · rintro (⟨hsub, hsup, hnamed⟩ | ⟨hsub, hsup, hnamed⟩)
    · exact ⟨hsub, hsup, Or.inl hnamed⟩
    · exact ⟨hsub, hsup, Or.inr hnamed⟩
  · rintro ⟨hsub, hsup, hnamed | hnamed⟩
    · exact Or.inl ⟨hsub, hsup, hnamed⟩
    · exact Or.inr ⟨hsub, hsup, hnamed⟩

/-! ### Entries, methods and declarations -/

/-- An entry is a type of the unit at the entry's index. -/
theorem mem_typeEntries_iff {p : Program} {e : TypeEntry} :
    e ∈ p.typeEntries ↔ ∃ u, p.units[e.unitIndex]? = some u ∧ ∃ t ∈ u.types, t.node = e.decl := by
  obtain ⟨index, decl⟩ := e
  simp only [typeEntries, List.mem_flatMap, List.mem_map, Prod.exists, List.mem_zipIdx_iff_getElem?,
    TypeEntry.mk.injEq]
  constructor
  · rintro ⟨u, _, hu, t, ht, rfl, hdecl⟩
    exact ⟨u, hu, t, ht, hdecl⟩
  · rintro ⟨u, hu, t, ht, hdecl⟩
    exact ⟨u, index, hu, t, ht, rfl, hdecl⟩

/-- The entries of a program are its declared types, unit by unit. -/
theorem map_decl_typeEntries (p : Program) : p.typeEntries.map (·.decl) = p.types := by
  rw [typeEntries, List.map_flatMap]
  simp only [List.map_map, Function.comp_def]
  exact flatMap_fst_zipIdx (fun u => u.types.map fun t => t.node) p.units 0

/-- What is read off the declarations of the entries is read off the declared types. -/
theorem map_typeEntries {α : Type} (p : Program) (f : TypeDecl → α) :
    (p.typeEntries.map fun e => f e.decl) = p.types.map f := by
  rw [← p.map_decl_typeEntries, List.map_map]
  rfl

theorem map_name_typeEntries (p : Program) : p.typeEntries.map (·.name) = p.types.map (·.name) :=
  p.map_typeEntries TypeDecl.name

/-- A method of a program is a method of the unit at its index. -/
theorem mem_methods_iff {p : Program} {m : MethodRef} :
    m ∈ p.methods ↔ ∃ u, p.units[m.unitIndex]? = some u ∧ m ∈ u.methods m.unitIndex := by
  simp only [methods, List.mem_flatMap, Prod.exists, List.mem_zipIdx_iff_getElem?]
  constructor
  · rintro ⟨u, i, hu, hm⟩
    -- the number that a method bears is that of the unit it was listed in
    obtain rfl := (SourceUnit.mem_methods_iff.1 hm).1
    exact ⟨u, hu, hm⟩
  · rintro ⟨u, hu, hm⟩
    exact ⟨u, m.unitIndex, hu, hm⟩

/-- A method of a program is a method of one of its types. -/
theorem owner_mem_types {p : Program} {m : MethodRef} (hm : m ∈ p.methods) :
    m.owner ∈ p.types ∧ m.method ∈ m.owner.methods := by
  obtain ⟨u, hu, hm⟩ := mem_methods_iff.1 hm
  obtain ⟨-, t, ht, howner, hmethod⟩ := SourceUnit.mem_methods_iff.1 hm
  refine ⟨List.mem_flatMap.2 ⟨u, List.mem_of_getElem? hu, ?_⟩, hmethod⟩
  exact howner ▸ List.mem_map_of_mem ht

/-- A method that a type of the program declares is a method of the program, in some unit. -/
theorem exists_mem_methods {p : Program} {t : TypeDecl} {d : Located MethodDecl} (ht : t ∈ p.types)
    (hd : d ∈ t.methods) : ∃ k, ⟨k, t, d⟩ ∈ p.methods := by
  obtain ⟨u, hu, htu⟩ := List.mem_flatMap.1 ht
  obtain ⟨l, hl, hlt⟩ := List.mem_map.1 htu
  obtain ⟨k, hk⟩ := List.getElem?_of_mem hu
  exact ⟨k, mem_methods_iff.2 ⟨u, hk, SourceUnit.mem_methods_iff.2 ⟨rfl, l, hl, hlt, hd⟩⟩⟩

end Program

/-! ### The index of a program -/

namespace TypeIndex

/-- A program is accepted exactly when its types have different names. -/
theorem exists_ofProgram?_iff {p : Program} :
    (∃ index, ofProgram? p = .ok index) ↔ p.DistinctTypes := by
  rw [Program.DistinctTypes, ← p.map_name_typeEntries]
  have hiff := @firstRepeated?_eq_none_iff [] (p.typeEntries.map (·.name))
  -- the index is built exactly where the search for a repeated name finds none
  unfold ofProgram?
  split
  · next name h =>
    simp only [h, reduceCtorEq, false_iff, List.not_mem_nil, not_false_eq_true, implies_true,
      and_true] at hiff
    simp [hiff]
  · next h => simpa using (hiff.1 h).1

/-- A program is refused for the first type name that has occurred before. -/
theorem ofProgram?_eq_error_iff {p : Program} {name : String} :
    ofProgram? p = .error name ↔
      firstRepeated? [] (p.types.map (·.name)) = some name := by
  rw [← p.map_name_typeEntries, ofProgram?]
  split
  · next found hfound => simp [hfound]
  · next hnone => simp [hnone]

/-- The index of a program holds its entries and nothing else. -/
theorem entries_of_ofProgram? {p : Program} {index : TypeIndex}
    (h : ofProgram? p = .ok index) : index.entries = p.typeEntries := by
  unfold ofProgram? at h
  split at h
  · cases h
  · cases h
    rfl

/-- What is found under a name is the one entry that bears it. -/
theorem find?_eq_some_iff {index : TypeIndex} {name : String} {e : TypeEntry} :
    index.find? name = some e ↔ e ∈ index.entries ∧ e.name = name := by
  refine ⟨fun h => ⟨mem_of_find? h, name_of_find? h⟩, ?_⟩
  rintro ⟨hmem, rfl⟩
  obtain ⟨f, hf⟩ : ∃ f, index.find? e.name = some f := by
    rw [← Option.isSome_iff_exists, find?, List.find?_isSome]
    exact ⟨e, hmem, by simp⟩
  -- what is found bears the same name, and no name is borne twice
  have heq : f = e :=
    List.inj_on_of_nodup_map index.nodup (mem_of_find? hf) hmem (name_of_find? hf)
  rw [hf, heq]

/-- Looking up the name of an entry that was found finds it again. -/
theorem find?_name_of_find? {index : TypeIndex} {name : String} {e : TypeEntry}
    (h : index.find? name = some e) : index.find? e.name = some e := by
  rw [name_of_find? h]
  exact h

section Accepted

variable {p : Program} {index : TypeIndex} (h : ofProgram? p = .ok index)

include h

/-- A name is looked up among the entries of the program. -/
theorem find?_eq_find?_typeEntries (name : String) :
    index.find? name = p.typeEntries.find? fun e => e.name == name := by
  rw [find?, entries_of_ofProgram? h]

/-- The declarations under a name of the index are the types of the program. -/
theorem mem_types_iff {t : TypeDecl} :
    t ∈ p.types ↔ ∃ e, index.find? t.name = some e ∧ e.decl = t := by
  rw [← p.map_decl_typeEntries, ← entries_of_ofProgram? h, List.mem_map]
  refine exists_congr fun e => ?_
  rw [find?_eq_some_iff]
  constructor
  · rintro ⟨he, rfl⟩
    exact ⟨⟨he, rfl⟩, rfl⟩
  · rintro ⟨⟨he, -⟩, hdecl⟩
    exact ⟨he, hdecl⟩

/-- A found entry declares a type of the program. -/
theorem decl_mem_types {name : String} {e : TypeEntry} (hfind : index.find? name = some e) :
    e.decl ∈ p.types :=
  (mem_types_iff h).2 ⟨e, find?_name_of_find? hfind, rfl⟩

/-- Two types of an accepted program that bear one name are the same. -/
theorem eq_of_name_eq {s t : TypeDecl} (hs : s ∈ p.types) (ht : t ∈ p.types)
    (hname : s.name = t.name) : s = t := by
  obtain ⟨e, he, rfl⟩ := (mem_types_iff h).1 hs
  obtain ⟨f, hf, rfl⟩ := (mem_types_iff h).1 ht
  rw [hname, hf] at he
  rw [Option.some.inj he]

end Accepted

end TypeIndex

end OverrideCheck
