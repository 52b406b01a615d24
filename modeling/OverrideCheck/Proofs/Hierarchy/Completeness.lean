import Mathlib.Data.List.Perm.Subperm
import OverrideCheck.Proofs.Hierarchy.Branches

/-!
# Completeness of the walk

What the walk over the supertypes of a type finds, said without the walk. Hierarchies may run in
circles, name an interface twice and name types from outside the program; none of this is excluded
anywhere below.

* `overridden_sound` — every result is the declaration of the method's signature in a proper
  supertype of its type, and a result other than by the type itself;
* `nodup_owners_overridden` — no type owns two results;
* `mem_owners_overridden` — every type that a chain of superclasses followed by a chain of
  interfaces leads to, and that declares the signature, owns one;
* `overridden_exact` — the three together.

The last inclusion is the one that needs an argument. Chains of superclasses are covered by
`TypeIndex.superclass_mem_seenAfter`, and from there on the names seen at the end are closed under
interfaces: a seen name of the program is that of the type itself, whose interfaces are all walked,
or that of a reported type, whose interfaces are all seen (`seenAfter_interfaces`).

A path that goes from an interface on to a superclass is not covered, and the walk does not cover
it: on a branch, only the type that starts it has its superclasses followed.
-/

namespace OverrideCheck

namespace TypeIndex

variable {p : Program} {index : TypeIndex}

/-! ### Soundness -/

/-- A result is declared in a type of a branch. -/
theorem exists_entry_of_mem_overridden {m : MethodRef} {a : Ancestor}
    (ha : a ∈ index.overridden m) :
    ∃ e ∈ (index.branchTypesFrom [m.owner.name] m.owner.directSupertypes).flatten,
      a.decl.unitIndex = e.unitIndex ∧ a.decl.owner = e.decl ∧
        e.decl.findMethod? m.method.node.erasedSignature = some a.decl.method := by
  have hdecl := List.mem_map_of_mem (f := Ancestor.decl) ha
  rw [map_decl_overridden, List.mem_filterMap] at hdecl
  obtain ⟨e, he, hfound⟩ := hdecl
  obtain ⟨d, hd, heq⟩ := declaration?_eq_some_iff.1 hfound
  rw [heq]
  exact ⟨e, he, rfl, rfl, hd⟩

/-- The names under which a type's proper supertypes are declared, if they are declared. -/
theorem inherited_transGen (h : ofProgram? p = .ok index) (t : TypeDecl) :
    index.Inherited fun name => ∀ e, index.find? name = some e →
      Relation.TransGen p.DirectSupertype t e.decl := by
  intro name e hname hfind s hs f hf
  have hsuper := decl_mem_types h hf
  have hstep : p.DirectSupertype e.decl f.decl := by
    refine Program.directSupertype_iff.2 ⟨decl_mem_types h hfind, hsuper, ?_⟩
    rwa [show f.decl.name = s from name_of_find? hf]
  exact (hname e hfind).tail hstep

/-- Every type on a branch is a proper supertype. -/
theorem transGen_of_mem_branchTypes (h : ofProgram? p = .ok index) {t : TypeDecl}
    (ht : t ∈ p.types) {e : TypeEntry}
    (he : e ∈ (index.branchTypesFrom [t.name] t.directSupertypes).flatten) :
    Relation.TransGen p.DirectSupertype t e.decl := by
  -- being above the type is inherited, so it is enough that its direct supertypes are above it
  refine branchTypesFrom_forall (inherited_transGen h t) [t.name] t.directSupertypes ?_ e he e
    ((index.branchTypesFrom_explores _ _).find?_of_mem he)
  intro name hname f hf
  refine .single (Program.directSupertype_iff.2 ⟨ht, decl_mem_types h hf, ?_⟩)
  rwa [show f.decl.name = name from name_of_find? hf]

/-- Every result is owned by a proper supertype other than the type itself, declared there, and has
the method's erased signature. -/
theorem overridden_sound (h : ofProgram? p = .ok index) {m : MethodRef} (hm : m.owner ∈ p.types)
    {a : Ancestor} (ha : a ∈ index.overridden m) :
    a.decl.owner ≠ m.owner ∧ a.decl.owner ∈ p.types ∧
      Relation.TransGen p.DirectSupertype m.owner a.decl.owner ∧
      a.decl.method ∈ a.decl.owner.methods ∧
      a.decl.method.node.erasedSignature = m.method.node.erasedSignature := by
  obtain ⟨e, he, -, howner, hfound⟩ := exists_entry_of_mem_overridden ha
  have hexplored := ((index.branchTypesFrom_explores _ _).mem_iff e).1 he
  obtain ⟨hdeclared, hsignature⟩ := TypeDecl.findMethod?_sound hfound
  rw [howner]
  refine ⟨fun heq => ?_, decl_mem_types h hexplored.1, transGen_of_mem_branchTypes h hm he,
    hdeclared, hsignature⟩
  -- the type's own name is seen from the start, so no branch reports it
  exact hexplored.2.2 (by simp [TypeEntry.name, heq])

/-- Every result is a method of the program. -/
theorem overridden_mem_methods (h : ofProgram? p = .ok index) {m : MethodRef} {a : Ancestor}
    (ha : a ∈ index.overridden m) : a.decl ∈ p.methods := by
  obtain ⟨e, he, hunit, howner, hfound⟩ := exists_entry_of_mem_overridden ha
  have hentry : e ∈ p.typeEntries :=
    entries_of_ofProgram? h ▸ mem_of_find? ((index.branchTypesFrom_explores _ _).find?_of_mem he)
  obtain ⟨u, hu, t, ht, hdecl⟩ := Program.mem_typeEntries_iff.1 hentry
  refine Program.mem_methods_iff.2 ⟨u, hunit ▸ hu, SourceUnit.mem_methods_iff.2 ⟨rfl, t, ht, ?_⟩⟩
  rw [hdecl, howner]
  exact ⟨rfl, (TypeDecl.findMethod?_sound hfound).1⟩

/-- The owners of the declarations found in a list of types are some of these types, in order. -/
theorem owners_sublist (key : ErasedSignature) (es : List TypeEntry) :
    ((es.filterMap fun e => e.declaration? key).map (·.owner.name)).Sublist (es.map (·.name)) := by
  induction es with
  | nil => exact List.Sublist.slnil
  | cons e rest ih =>
    cases hfound : e.declaration? key with
    | none =>
      simp only [List.filterMap_cons, hfound, List.map_cons]
      exact ih.cons _
    | some d =>
      obtain ⟨m, -, rfl⟩ := declaration?_eq_some_iff.1 hfound
      simp only [List.filterMap_cons, hfound, List.map_cons]
      exact ih.cons_cons _

/-- No type owns two of the declarations a method overrides. -/
theorem nodup_owners_overridden (index : TypeIndex) (m : MethodRef) :
    ((index.overridden m).map (·.decl.owner.name)).Nodup := by
  have hmap : (index.overridden m).map (·.decl.owner.name) =
      ((index.overridden m).map (·.decl)).map (·.owner.name) := by
    rw [List.map_map]
    rfl
  -- the owners are found among the types of the branches, and those are reported once
  rw [hmap, map_decl_overridden]
  exact (index.branchTypesFrom_explores _ _).nodup.sublist (owners_sublist _ _)

/-! ### Completeness -/

/-- The names seen when the last branch ends are closed under interfaces. -/
theorem seenAfter_interfaces (h : ofProgram? p = .ok index) {t d : TypeDecl} (ht : t ∈ p.types)
    (hd : d ∈ p.types) (hseen : d.name ∈ index.seenAfter [t.name] t.directSupertypes) :
    d.interfaces ⊆ index.seenAfter [t.name] t.directSupertypes := by
  obtain ⟨hnames, hreported⟩ := index.branchTypesFrom_closed [t.name] t.directSupertypes
  by_cases hself : d.name = t.name
  · -- the interfaces of the type itself start branches of their own
    obtain rfl := eq_of_name_eq h hd ht hself
    exact fun i hi => hnames (List.mem_append_right _ hi)
  · obtain ⟨e, hfind, rfl⟩ := (mem_types_iff h).1 hd
    refine hreported e (((index.branchTypesFrom_explores _ _).mem_iff e).2 ⟨hfind, hseen, ?_⟩)
    exact fun hmem => hself (List.mem_singleton.1 hmem)

/-- A chain of superclasses followed by a chain of interfaces leads to names that are seen. -/
theorem mem_seenAfter (h : ofProgram? p = .ok index) {t mid d : TypeDecl} (ht : t ∈ p.types)
    (hmid : Relation.ReflTransGen p.Extends t mid)
    (hd : Relation.ReflTransGen p.Implements mid d) :
    d.name ∈ index.seenAfter [t.name] t.directSupertypes := by
  -- induction on the chain of interfaces, which starts where the one of superclasses ends
  induction hd with
  | refl => exact superclass_mem_seenAfter h hmid
  | tail _ hstep ih => exact seenAfter_interfaces h ht hstep.sub_mem ih hstep.named

/-- A type reached by single steps from a type of the program is a type of the program. -/
theorem mem_types_of_reflTransGen {t mid d : TypeDecl} (ht : t ∈ p.types)
    (hmid : Relation.ReflTransGen p.Extends t mid)
    (hd : Relation.ReflTransGen p.Implements mid d) : d ∈ p.types := by
  rcases Relation.ReflTransGen.cases_tail hd with rfl | ⟨_, -, hstep⟩
  · rcases Relation.ReflTransGen.cases_tail hmid with rfl | ⟨_, -, hstep⟩
    · exact ht
    · exact hstep.sup_mem
  · exact hstep.sup_mem

/-- Every other type that a chain of superclasses followed by a chain of interfaces leads to owns a
result, if it declares the signature. -/
theorem mem_owners_overridden (h : ofProgram? p = .ok index) {m : MethodRef}
    (hm : m.owner ∈ p.types) {mid t : TypeDecl} (hne : t ≠ m.owner)
    (hmid : Relation.ReflTransGen p.Extends m.owner mid)
    (ht : Relation.ReflTransGen p.Implements mid t)
    (hdeclares : ∃ d ∈ t.methods, d.node.erasedSignature = m.method.node.erasedSignature) :
    ∃ a ∈ index.overridden m, a.decl.owner = t := by
  have hmem := mem_types_of_reflTransGen hm hmid ht
  obtain ⟨e, hfind, rfl⟩ := (mem_types_iff h).1 hmem
  -- its name is seen and is not the one the walk starts with, so some branch reports it
  have hnew : e.name ∉ [m.owner.name] := fun hname =>
    hne (eq_of_name_eq h hmem hm (List.mem_singleton.1 hname))
  have he : e ∈ (index.branchTypesFrom [m.owner.name] m.owner.directSupertypes).flatten :=
    ((index.branchTypesFrom_explores _ _).mem_iff e).2 ⟨hfind, mem_seenAfter h hm hmid ht, hnew⟩
  obtain ⟨d, hd⟩ := Option.isSome_iff_exists.1 (TypeDecl.isSome_findMethod?_iff.2 hdeclares)
  have hfound : (⟨e.unitIndex, e.decl, d⟩ : MethodRef) ∈ (index.overridden m).map (·.decl) := by
    rw [map_decl_overridden, List.mem_filterMap]
    exact ⟨e, he, declaration?_eq_some_iff.2 ⟨d, hd, rfl⟩⟩
  obtain ⟨a, ha, hdecl⟩ := List.mem_map.1 hfound
  exact ⟨a, ha, by rw [hdecl]⟩

/-- There are fewer results than types: the owners are distinct, and the type itself is none of
them. -/
theorem length_overridden_lt (h : ofProgram? p = .ok index) {m : MethodRef}
    (hm : m.owner ∈ p.types) : (index.overridden m).length < p.types.length := by
  -- the owners and the type itself are different types of the program
  have hnodup : (m.owner.name :: (index.overridden m).map (·.decl.owner.name)).Nodup := by
    refine List.nodup_cons.2 ⟨fun hmem => ?_, nodup_owners_overridden index m⟩
    obtain ⟨a, ha, hname⟩ := List.mem_map.1 hmem
    obtain ⟨hne, howner, -⟩ := overridden_sound h hm ha
    exact hne (eq_of_name_eq h howner hm hname)
  have hsub : m.owner.name :: (index.overridden m).map (·.decl.owner.name) ⊆
      p.types.map (·.name) := by
    refine List.cons_subset.2 ⟨List.mem_map_of_mem hm, fun n hn => ?_⟩
    obtain ⟨a, ha, rfl⟩ := List.mem_map.1 hn
    exact List.mem_map_of_mem (overridden_sound h hm ha).2.1
  have hle := (hnodup.subperm hsub).length_le
  rw [List.length_cons, List.length_map, List.length_map] at hle
  exact hle

end TypeIndex

/-! ### The walk as a whole -/

/-- **The declarations a method overrides, exactly.** In every accepted program, whatever circles
its hierarchy runs in, a method's search ends with fewer results than there are types. The owners
of the results are pairwise distinct types of the program, none of them the method's own, each a
proper supertype of it that declares the method's signature; and every other type that a chain of
superclasses followed by a chain of interfaces leads to, and that declares the signature, owns
exactly one of the results. -/
theorem overridden_exact {p : Program} {index : TypeIndex} (h : TypeIndex.ofProgram? p = .ok index)
    {m : MethodRef} (hm : m ∈ p.methods) :
    (index.overridden m).length < p.types.length ∧
    ((index.overridden m).map (·.decl.owner.name)).Nodup ∧
    (∀ a ∈ index.overridden m,
      a.decl.owner ≠ m.owner ∧ a.decl.owner ∈ p.types ∧
      Relation.TransGen p.DirectSupertype m.owner a.decl.owner ∧
      a.decl.method ∈ a.decl.owner.methods ∧
      a.decl.method.node.erasedSignature = m.method.node.erasedSignature) ∧
    ∀ mid t, t ≠ m.owner →
      Relation.ReflTransGen p.Extends m.owner mid → Relation.ReflTransGen p.Implements mid t →
      (∃ d ∈ t.methods, d.node.erasedSignature = m.method.node.erasedSignature) →
      (∃ a ∈ index.overridden m, a.decl.owner = t) ∧
        ((index.overridden m).map (·.decl.owner.name)).count t.name = 1 := by
  have hm := (Program.owner_mem_types hm).1
  -- exactly one, because one is found and no owner occurs twice
  have hnodup := TypeIndex.nodup_owners_overridden index m
  refine ⟨TypeIndex.length_overridden_lt h hm, hnodup,
    fun a ha => TypeIndex.overridden_sound h hm ha, ?_⟩
  intro mid t hne hmid ht hdeclares
  obtain ⟨a, ha, rfl⟩ := TypeIndex.mem_owners_overridden h hm hne hmid ht hdeclares
  exact ⟨⟨a, ha, rfl⟩, List.count_eq_one_of_mem hnodup (List.mem_map_of_mem ha)⟩

/-! ### A hierarchy that runs in circles -/

namespace Circular

/-- A method without parameters. -/
def foo : Located MethodDecl := ⟨{ name := "foo" }, .atLine 4⟩

/-- A class that is the superclass of its own superclass. -/
def first : TypeDecl :=
  { name := "test.First", kind := .classKind, superclass := some "test.Second", methods := [foo] }

/-- Its superclass, which names an interface twice. -/
def second : TypeDecl :=
  { name := "test.Second", kind := .classKind, superclass := some "test.First",
    interfaces := ["test.Api", "test.Api"], methods := [foo] }

/-- An interface that extends itself and one from outside the program. -/
def api : TypeDecl :=
  { name := "test.Api", kind := .interfaceKind, interfaces := ["test.Api", "java.io.Serializable"],
    methods := [foo] }

/-- The three types, each in a unit of its own. -/
def program : Program :=
  ⟨[{ types := [⟨first, .atLine 3⟩] }, { types := [⟨second, .atLine 3⟩] },
    { types := [⟨api, .atLine 3⟩] }]⟩

/-- The method of the first class. -/
def method : MethodRef := ⟨0, first, foo⟩

/-- In a hierarchy of two classes above each other and an interface above itself, the interface is
found once, through the superclass that names it twice. -/
theorem api_found_once : ∃ index, TypeIndex.ofProgram? program = .ok index ∧
    method ∈ program.methods ∧ api ≠ method.owner ∧
    Relation.ReflTransGen program.Extends method.owner second ∧
    Relation.ReflTransGen program.Implements second api ∧
    (∃ d ∈ api.methods, d.node.erasedSignature = method.method.node.erasedSignature) ∧
    (∃ a ∈ index.overridden method, a.decl.owner = api) ∧
    ((index.overridden method).map (·.decl.owner.name)).count "test.Api" = 1 := by
  obtain ⟨index, h⟩ := TypeIndex.exists_ofProgram?_iff.2
    (show program.DistinctTypes by decide)
  have hm : method ∈ program.methods := by simp [Program.methods, SourceUnit.methods,
    program, method, first]
  have hne : api ≠ method.owner := fun heq => absurd (congrArg TypeDecl.name heq) (by decide)
  have htypes : program.types = [first, second, api] := rfl
  have hext : program.Extends method.owner second :=
    ⟨by simp [htypes, method], by simp [htypes], rfl⟩
  have himp : program.Implements second api :=
    ⟨by simp [htypes], by simp [htypes], by simp [second, api]⟩
  have hdeclares : ∃ d ∈ api.methods,
      d.node.erasedSignature = method.method.node.erasedSignature :=
    ⟨foo, List.mem_singleton_self _, rfl⟩
  obtain ⟨-, -, -, hfound⟩ := overridden_exact h hm
  obtain ⟨howns, honce⟩ := hfound second api hne (.single hext) (.single himp) hdeclares
  exact ⟨index, h, hm, hne, .single hext, .single himp, hdeclares, howns, honce⟩

end Circular

end OverrideCheck
