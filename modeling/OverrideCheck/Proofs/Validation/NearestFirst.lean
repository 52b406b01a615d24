import OverrideCheck.Proofs.Hierarchy.SubtypesFirst
import OverrideCheck.Proofs.Validation.Nearest
import OverrideCheck.Proofs.Validation.Outcome

/-!
# How near the nearest declaration is

The check takes the first participating declaration of a branch for the nearest one. It is not, if
another participating declaration of the branch overrides it: then that one lies between it and the
method. Whether this can happen depends on the hierarchy. It cannot where branches list subtypes
first, and wherever a branch does not, there are methods and annotations with which it happens
(`nearestFirst_exact`).

* `TypeIndex.declarationsOn` — the declarations a method overrides on a branch;
* `Validator.NearestFirst` — no participating declaration of a branch overrides the nearest one;
* `Validator.nearestFirst_of_nodup` — it is so where on no way up a type is met twice;
* `Program.probe` — a program in which chosen types declare one participating method, and no type
  declares anything else;
* `Shared.nearest_overridden` — a program whose check takes a declaration for the nearest one that
  another one of the branch overrides.
-/

namespace OverrideCheck

open TypeIndex

/-! ### The declarations of a branch -/

/-- The declarations that a method overrides on a branch. -/
def TypeIndex.declarationsOn (index : TypeIndex) (m : MethodRef) (branch : Nat) : List MethodRef :=
  ((index.branches m.owner)[branch]?.getD []).filterMap fun e =>
    e.declaration? m.method.node.erasedSignature

/-- Of lists that are numbered from `start`, the one of a given number. -/
theorem flatMap_zipIdx_eq {α β : Type} (f : α → List β) (xs : List α) (start number : Nat) :
    ((xs.zipIdx start).flatMap fun (x, k) => if k = number then f x else []) =
      if number < start then [] else (xs[number - start]?.map f).getD [] := by
  induction xs generalizing start with
  | nil => simp
  | cons x xs ih =>
    rw [List.zipIdx_cons, List.flatMap_cons, ih]
    -- the number is behind, it is the one of this list, or it is still to come
    rcases Nat.lt_trichotomy number start with hlt | rfl | hgt
    · have hne : start ≠ number := hlt.ne'
      simp [hne, hlt, hlt.trans (Nat.lt_succ_self start)]
    · simp
    · have hne : start ≠ number := hgt.ne
      have hnext : number - start = (number - (start + 1)) + 1 := by omega
      simp [hne, hnext, hgt.le.not_gt, Nat.not_lt.2 hgt]

/-- The ancestors on a branch are the declarations of the signature in its types. -/
theorem TypeIndex.map_decl_filter_branch (index : TypeIndex) (m : MethodRef) (branch : Nat) :
    ((index.overridden m).filter fun a => a.branch = branch).map (·.decl) =
      index.declarationsOn m branch := by
  -- the group of one branch is kept as a whole or left out as a whole
  have hgroup (types : List TypeEntry) (k : Nat) :
      ((types.filterMap fun e => (e.declaration? m.method.node.erasedSignature).map fun decl =>
        (⟨k, decl⟩ : Ancestor)).filter fun a => a.branch = branch).map (·.decl) =
      if k = branch then
        types.filterMap fun e => e.declaration? m.method.node.erasedSignature
      else [] := by
    split
    · next hk =>
      rw [List.filter_eq_self.2, List.map_filterMap]
      · simp [Function.comp_def]
      · simp only [List.mem_filterMap, Option.map_eq_some_iff]
        rintro _ ⟨e, -, d, -, rfl⟩
        exact decide_eq_true hk
    · next hk =>
      rw [List.filter_eq_nil_iff.2, List.map_nil]
      simp only [List.mem_filterMap, Option.map_eq_some_iff]
      rintro _ ⟨e, -, d, -, rfl⟩
      simpa using hk
  rw [overridden, List.filter_flatMap, List.map_flatMap, declarationsOn]
  simp only [hgroup]
  rw [flatMap_zipIdx_eq]
  cases (index.branches m.owner)[branch]? <;> simp

/-- The nearest declaration of a branch is the first of its declarations that takes part. -/
theorem firstOn?_overridden (r : AnnotationReader) (index : TypeIndex) (m : MethodRef)
    (branch : Nat) :
    firstOn? r (index.overridden m) branch =
      (index.declarationsOn m branch).find? fun d => r.participates d.method.node := by
  rw [← map_decl_filter_branch, List.find?_map, List.find?_filter, firstOn?]
  simp

/-- The declarations on a branch are those of the ancestors there. -/
theorem mem_declarationsOn_iff {index : TypeIndex} {m d : MethodRef} {branch : Nat} :
    d ∈ index.declarationsOn m branch ↔
      ∃ a ∈ index.overridden m, a.branch = branch ∧ a.decl = d := by
  simp [← map_decl_filter_branch, and_assoc]

namespace Validator

variable {p : Program} {index : TypeIndex} {settings : Settings} {v : Validator}

/-- On the branch of a nearest declaration, no participating declaration stands in a proper subtype
of the nearest one's owner, which would override it. -/
def NearestFirst (v : Validator) : Prop :=
  ∀ m ∈ v.program.methods, ∀ n ∈ v.lookup m, n.decl ∈ v.nearest m →
    ∀ a ∈ v.lookup m, a.branch = n.branch → v.participates a.decl = true →
      ¬ Relation.TransGen v.program.DirectSupertype a.decl.owner n.decl.owner

/-- A declaration that is found is nearest exactly when it is the first of its branch to take
part. -/
theorem decl_mem_nearest_iff (hv : ofProgram? p settings = .ok v) {m : MethodRef} {n : Ancestor}
    (hn : n ∈ v.lookup m) :
    n.decl ∈ v.nearest m ↔ firstOn? v.reader (v.lookup m) n.branch = some n.decl := by
  obtain ⟨i, -, rfl⟩ := ofProgram?_eq_ok_iff.1 hv
  refine mem_nearestParticipating_iff.trans ⟨?_, fun h => ⟨_, h⟩⟩
  rintro ⟨branch, hfirst⟩
  obtain ⟨x, hx, rfl, hdecl, -⟩ := exists_ancestor_of_firstOn? hfirst
  -- no type owns two of the declarations found, so the one that is first is this one
  obtain rfl : x = n := List.inj_on_of_nodup_map (i.nodup_owners_overridden m) hx hn
    (congrArg (fun d : MethodRef => d.owner.name) hdecl)
  exact hfirst

/-- Where branches list subtypes first, the declarations on a branch do as well. -/
theorem pairwise_declarationsOn (h : p.SubtypesFirst index) {m : MethodRef}
    (hm : m.owner ∈ p.types) (branch : Nat) :
    (index.declarationsOn m branch).Pairwise fun a b =>
      ¬ Relation.TransGen p.DirectSupertype b.owner a.owner := by
  rw [TypeIndex.declarationsOn]
  cases hbranch : (index.branches m.owner)[branch]? with
  | none => exact List.Pairwise.nil
  | some types =>
    refine List.Pairwise.filterMap _ (fun e f hef a ha b hb => ?_)
      (h _ hm types (List.mem_of_getElem? hbranch))
    obtain ⟨_, -, rfl⟩ := declaration?_eq_some_iff.1 ha
    obtain ⟨_, -, rfl⟩ := declaration?_eq_some_iff.1 hb
    exact hef

/-- Where branches list subtypes first, no participating declaration of a branch overrides the
nearest one. -/
theorem nearestFirst_of_subtypesFirst (hindex : TypeIndex.ofProgram? p = .ok index)
    (hacyclic : p.Acyclic) (hfirst : p.SubtypesFirst index)
    (hv : ofProgram? p settings = .ok v) : v.NearestFirst := by
  obtain ⟨i, hi, rfl⟩ := ofProgram?_eq_ok_iff.1 hv
  obtain rfl := Except.ok.inj (hindex.symm.trans hi)
  intro m hm n hn hnearest a ha hbranch hpart
  have hdecl : a.decl ∈ index.declarationsOn m n.branch :=
    mem_declarationsOn_iff.2 ⟨a, ha, hbranch, rfl⟩
  have hpairs := pairwise_declarationsOn hfirst (Program.owner_mem_types hm).1 n.branch
  rw [decl_mem_nearest_iff hv hn, firstOn?_overridden, List.find?_eq_some_iff_append] at hnearest
  obtain ⟨-, before, behind, hsplit, hbefore⟩ := hnearest
  rw [hsplit] at hdecl hpairs
  -- the declarations before the nearest one take no part, so it comes first
  rcases List.mem_append.1 hdecl with hmem | hmem
  · have hnot := hbefore _ hmem
    exact absurd hpart (by simpa [Validator.participates] using hnot)
  · rcases List.mem_cons.1 hmem with heq | hmem
    · rw [heq]
      exact hacyclic _
    · exact (List.pairwise_cons.1 (List.pairwise_append.1 hpairs).2.1).1 _ hmem

/-- No participating declaration of a branch overrides the nearest one if on the way up from a
direct supertype no type is met twice. -/
theorem nearestFirst_of_nodup (hindex : TypeIndex.ofProgram? p = .ok index)
    (hacyclic : p.Acyclic) (hp : p.Stratified)
    (hnodup : ∀ t ∈ p.types, ∀ c ∈ index.known t.directSupertypes,
      ((index.expansion (wellFounded_above hindex hacyclic) c).map (·.name)).Nodup)
    (hv : ofProgram? p settings = .ok v) : v.NearestFirst :=
  nearestFirst_of_subtypesFirst hindex hacyclic (subtypesFirst_of_nodup hindex hp hacyclic hnodup)
    hv

end Validator

/-! ### Programs with one method -/

/-- The type with the given method if it bears one of the given names, and with none if not. -/
def TypeDecl.probe (names : List String) (d : Located MethodDecl) (t : TypeDecl) : TypeDecl :=
  { t with methods := if t.name ∈ names then [d] else [] }

/-- The program with the given method in the types of the given names, and no other method. -/
def Program.probe (names : List String) (d : Located MethodDecl) (p : Program) : Program :=
  ⟨p.units.map fun u =>
    { u with types := u.types.map fun t => ⟨t.node.probe names d, t.position⟩ }⟩

section Probe

variable {p : Program} {names : List String} {d : Located MethodDecl}

/-- The types are those of the program, with other methods. -/
theorem Program.types_probe : (p.probe names d).types = p.types.map (TypeDecl.probe names d) := by
  rw [types, types, probe, List.flatMap_map, List.map_flatMap]
  refine List.flatMap_congr fun u _ => ?_
  simp [List.map_map, Function.comp_def]

/-- The hierarchy is that of the program. -/
theorem Program.sameHierarchy_probe : p.SameHierarchy (p.probe names d) := by
  rw [SameHierarchy, types_probe, List.map_map]
  rfl

/-- Only a type of one of the names declares the method. -/
theorem declaration?_probe {e : TypeEntry} (he : e.decl ∈ (p.probe names d).types) :
    e.declaration? d.node.erasedSignature =
      if e.name ∈ names then some ⟨e.unitIndex, e.decl, d⟩ else none := by
  rw [Program.types_probe] at he
  obtain ⟨t, -, ht⟩ := List.mem_map.1 he
  have hmethods : e.decl.methods = if e.name ∈ names then [d] else [] := by
    rw [TypeEntry.name, ← ht]
    rfl
  rw [TypeEntry.declaration?, TypeDecl.findMethod?, hmethods]
  split
  · simp
  · rfl

/-- A type of one of the names has the method. -/
theorem exists_mem_methods_probe {t : TypeDecl} (ht : t ∈ p.types) (hname : t.name ∈ names) :
    ∃ k, ⟨k, t.probe names d, d⟩ ∈ (p.probe names d).methods := by
  refine Program.exists_mem_methods ?_ (by simp [TypeDecl.probe, hname])
  rw [Program.types_probe]
  exact List.mem_map_of_mem ht

section Branch

variable {index : TypeIndex} {types types' : List TypeEntry} {m : MethodRef} {k : Nat}
  (hrel : List.Forall₂ (SameHeading p (p.probe names d)) types types')
  (hbranch : (index.branches m.owner)[k]? = some types') (hmethod : m.method = d)

include hrel hbranch hmethod

/-- On a branch of the program, the method is nearest in the first type that has it. -/
theorem firstOn?_probe {r : AnnotationReader} (hpart : r.participates d.node = true)
    {e : TypeEntry} (he : (types.find? fun e => decide (e.name ∈ names)) = some e) :
    ∃ e', SameHeading p (p.probe names d) e e' ∧
      firstOn? r (index.overridden m) k = some ⟨e'.unitIndex, e'.decl, d⟩ := by
  -- in the program, a type is passed over exactly when it bears none of the names
  have htest (x y : TypeEntry) (hxy : SameHeading p (p.probe names d) x y) :
      decide (x.name ∈ names) = (y.declaration? d.node.erasedSignature).any
        fun a => r.participates a.method.node := by
    rw [declaration?_probe hxy.right, hxy.name]
    by_cases hname : y.name ∈ names <;> simp [hname, hpart]
  have hfind := find?_rel htest hrel
  rw [he] at hfind
  rw [firstOn?_overridden, declarationsOn, hbranch, hmethod, Option.getD_some, List.find?_filterMap]
  cases hfound : types'.find? fun y => (y.declaration? d.node.erasedSignature).any
      fun a => r.participates a.method.node with
  | none =>
    rw [hfound] at hfind
    cases hfind
  | some e' =>
    rw [hfound] at hfind
    cases hfind with
    | some hee' =>
      have hname : e.name ∈ names := by simpa using List.find?_some he
      refine ⟨e', hee', ?_⟩
      rw [Option.bind_some, declaration?_probe hee'.right, if_pos (hee'.name ▸ hname)]

/-- On a branch of the program, the method is found in every type that has it. -/
theorem exists_ancestor_probe {f : TypeEntry} (hf : f ∈ types) (hname : f.name ∈ names) :
    ∃ f' a, SameHeading p (p.probe names d) f f' ∧ a ∈ index.overridden m ∧ a.branch = k ∧
      a.decl = ⟨f'.unitIndex, f'.decl, d⟩ := by
  obtain ⟨hlength, hget⟩ := List.forall₂_iff_get.1 hrel
  obtain ⟨b, hb, rfl⟩ := List.getElem_of_mem hf
  have hb' : b < types'.length := hlength ▸ hb
  have hff' : SameHeading p (p.probe names d) types[b] types'[b] := hget b hb hb'
  have hdecl : ⟨types'[b].unitIndex, types'[b].decl, d⟩ ∈ index.declarationsOn m k := by
    rw [declarationsOn, hbranch, hmethod, Option.getD_some, List.mem_filterMap]
    refine ⟨types'[b], List.getElem_mem hb', ?_⟩
    rw [declaration?_probe hff'.right, if_pos (hff'.name ▸ hname)]
  obtain ⟨a, ha, hbranch, hdecl⟩ := mem_declarationsOn_iff.1 hdecl
  exact ⟨types'[b], a, hff', ha, hbranch, hdecl⟩

end Branch

end Probe

/-- A method that takes part in the protocol by its own annotation. -/
def AnnotationNames.probed (n : AnnotationNames) : Located MethodDecl :=
  ⟨{ name := "probe", annotations := [{ name := n.rebind }] }, .atLine 1⟩

/-- The method takes part. -/
theorem AnnotationNames.participates_probed (n : AnnotationNames) :
    n.reader.participates n.probed.node = true := by
  simp [reader, rebindOf?, probed, findAnnotation?]

/-! ### Exactly where the nearest declaration is not overridden -/

/-- Among different types, the first one of two names and a name that none of them bears is the one
that stands first. -/
theorem find?_name_mem_eq_some {types : List TypeEntry} {a b : Nat} {name : String}
    (hnodup : (types.map (·.name)).Nodup) (hother : ∀ e ∈ types, e.name ≠ name)
    (ha : a < types.length) (hb : b < types.length) (hab : a < b) :
    (types.find? fun e => decide (e.name ∈ [name, types[a].name, types[b].name])) =
      some types[a] := by
  have hinjective {c d : Nat} (hc : c < types.length) (hd : d < types.length)
      (hname : types[c].name = types[d].name) : c = d := by
    refine (List.getElem?_inj (by simpa using hc) hnodup).1 ?_
    rw [List.getElem?_map, List.getElem?_map, List.getElem?_eq_getElem hc,
      List.getElem?_eq_getElem hd, Option.map_some, Option.map_some, hname]
  refine List.find?_eq_some_iff_getElem.2 ⟨by simp, a, ha, rfl, fun c hc => ?_⟩
  have hcname := hother types[c] (List.getElem_mem _)
  have hca : types[c].name ≠ types[a].name := fun heq => hc.ne (hinjective _ ha heq)
  have hcb : types[c].name ≠ types[b].name := fun heq => (hc.trans hab).ne (hinjective _ hb heq)
  simp [hcname, hca, hcb]

namespace Validator

variable {p : Program} {index : TypeIndex} {settings : Settings}

/-- Where a branch lists a type before one of its proper subtypes, there is a program of the same
hierarchy in which a declaration is taken for the nearest one that another one of the branch
overrides. -/
theorem subtypesFirst_of_nearestFirst (hindex : TypeIndex.ofProgram? p = .ok index)
    (h : ∀ q v, p.SameHierarchy q → ofProgram? q settings = .ok v → v.NearestFirst) :
    p.SubtypesFirst index := by
  intro t ht types htypes
  refine List.pairwise_iff_getElem.2 fun a b ha hb hab hba => ?_
  -- the type itself, the type listed too early and its subtype declare the method, and no other
  let names := [t.name, types[a].name, types[b].name]
  let d := settings.names.probed
  have hsame : p.SameHierarchy (p.probe names d) := Program.sameHierarchy_probe
  obtain ⟨j, hj⟩ := hsame.exists_index hindex
  obtain ⟨u, hm⟩ := exists_mem_methods_probe (d := d) ht (show t.name ∈ names by simp [names])
  obtain ⟨k, hk⟩ := List.getElem?_of_mem htypes
  obtain ⟨types', hbranch, hrel⟩ := hsame.exists_branch hindex hj (u := t.probe names d) rfl hk
  -- a branch holds different types, and never the type that it starts from
  have hexplores := index.branchTypesFrom_explores [t.name] t.directSupertypes
  have hflatten : types.Sublist (index.branchTypesFrom [t.name] t.directSupertypes).flatten :=
    List.sublist_flatten_of_mem (index.branches_eq t ▸ htypes)
  have hother : ∀ e ∈ types, e.name ≠ t.name := fun e he => by
    simpa using ((hexplores.mem_iff e).1 (hflatten.subset he)).2.2
  -- so the type listed too early is where the method is nearest, and the subtype comes later
  have hfirst := find?_name_mem_eq_some (hexplores.nodup.sublist (hflatten.map _)) hother ha hb hab
  obtain ⟨e', hee', hnearest⟩ := firstOn?_probe (m := ⟨u, t.probe names d, d⟩) hrel hbranch rfl
    settings.names.participates_probed hfirst
  obtain ⟨f', x, hff', hx, hxbranch, hxdecl⟩ := exists_ancestor_probe
    (m := ⟨u, t.probe names d, d⟩) hrel hbranch rfl (List.getElem_mem hb) (by simp [names])
  obtain ⟨n, hn, hnbranch, hndecl, -⟩ := exists_ancestor_of_firstOn? hnearest
  have hv : ofProgram? (p.probe names d) settings = .ok _ := ofProgram?_eq_ok_iff.2 ⟨j, hj, rfl⟩
  refine h _ _ hsame hv _ hm n hn ?_ x hx (hxbranch.trans hnbranch.symm) ?_ ?_
  · exact mem_nearestParticipating_iff.2 ⟨k, hndecl.symm ▸ hnearest⟩
  · rw [Validator.participates, hxdecl]
    exact settings.names.participates_probed
  · rw [hxdecl, hndecl]
    exact hsame.transGen hj hff' hee' hba

/-- **Where the nearest declaration of a branch is not overridden by another one of it.** In an
accepted program without circles it is not if no branch lists a type before one of its proper
subtypes. The condition is exact: it holds if and only if in every program of the same hierarchy,
whatever its methods and annotations, the nearest declarations are not overridden. -/
theorem nearestFirst_exact (hindex : TypeIndex.ofProgram? p = .ok index) (hacyclic : p.Acyclic) :
    (p.SubtypesFirst index → ∀ v, ofProgram? p settings = .ok v → v.NearestFirst) ∧
      (p.SubtypesFirst index ↔
        ∀ q v, p.SameHierarchy q → ofProgram? q settings = .ok v → v.NearestFirst) := by
  refine ⟨fun hfirst v hv => nearestFirst_of_subtypesFirst hindex hacyclic hfirst hv,
    fun hfirst q v hsame hv => ?_, subtypesFirst_of_nearestFirst hindex⟩
  obtain ⟨j, hj, -⟩ := ofProgram?_eq_ok_iff.1 hv
  exact nearestFirst_of_subtypesFirst hj (hsame.acyclic hindex hacyclic)
    (hsame.subtypesFirst hindex hj hfirst) hv

end Validator

/-! ### An interface extended twice -/

namespace Shared

/-- A method that takes part in the protocol. -/
def foo (line : UInt32) : Located MethodDecl :=
  ⟨{ name := "foo", annotations := [{ name := "com.google.gwt.core.shared.Rebind" }] },
    .atLine line⟩

/-- An interface that declares it. -/
def root : TypeDecl :=
  { name := "test.Root", kind := .interfaceKind, methods := [foo 4] }

/-- An interface that extends the first one and declares nothing. -/
def left : TypeDecl :=
  { name := "test.Left", kind := .interfaceKind, interfaces := ["test.Root"] }

/-- An interface that extends the first one and declares the method anew. -/
def right : TypeDecl :=
  { name := "test.Right", kind := .interfaceKind, interfaces := ["test.Root"], methods := [foo 5] }

/-- An interface that extends both of these and declares nothing. -/
def both : TypeDecl :=
  { name := "test.Both", kind := .interfaceKind, interfaces := ["test.Left", "test.Right"] }

/-- A class that implements it. -/
def impl : TypeDecl :=
  { name := "test.Impl", kind := .classKind, interfaces := ["test.Both"], methods := [foo 6] }

/-- The five types, each in a unit of its own. -/
def program : Program :=
  ⟨[root, left, right, both, impl].map fun t => { types := [⟨t, .atLine 3⟩] }⟩

/-- The method of the first interface. -/
def inRoot : MethodRef := ⟨0, root, foo 4⟩

/-- The method of the interface that declares it anew. -/
def inRight : MethodRef := ⟨2, right, foo 5⟩

/-- The method of the class. -/
def inImpl : MethodRef := ⟨4, impl, foo 6⟩

/-- The class overrides the method of the first interface before the one that overrides it, on one
branch. -/
theorem overridden_inImpl {index : TypeIndex} (h : TypeIndex.ofProgram? program = .ok index) :
    index.overridden inImpl = [⟨0, inRoot⟩, ⟨0, inRight⟩] := by
  have hentries := TypeIndex.find?_eq_find?_typeEntries h
  have hboth : index.find? "test.Both" = some ⟨3, both⟩ := by rw [hentries]; rfl
  have hleft : index.find? "test.Left" = some ⟨1, left⟩ := by rw [hentries]; rfl
  have hright : index.find? "test.Right" = some ⟨2, right⟩ := by rw [hentries]; rfl
  have hroot : index.find? "test.Root" = some ⟨0, root⟩ := by rw [hentries]; rfl
  have hbranches : index.branches impl = [[⟨3, both⟩, ⟨1, left⟩, ⟨0, root⟩, ⟨2, right⟩]] := by
    simp [branches_eq, TypeDecl.directSupertypes, impl, branchTypesFrom_of_find?_eq_some, hboth,
      supertypesFrom_eq, superclassChain, interfacesAbove, both, interfacesFrom_of_find?_eq_some,
      hleft, left, hroot, root, hright, right, interfacesFrom_of_mem]
  rw [overridden, show inImpl.owner = impl from rfl, hbranches]
  rfl

/-- How many steps there are at most from a type to the last one above it. -/
def rank (name : String) : Nat :=
  ["test.Root", "test.Left", "test.Right", "test.Both", "test.Impl"].idxOf name

/-- The method of the first interface is taken for the nearest one that the class overrides,
although another one of the branch takes part, in an interface that extends the first one. -/
theorem nearest_overridden : ∃ v, Validator.ofProgram? program {} = .ok v ∧ program.Acyclic ∧
    inImpl ∈ v.program.methods ∧ v.nearest inImpl = [inRoot] ∧
    v.lookup inImpl = [⟨0, inRoot⟩, ⟨0, inRight⟩] ∧ v.participates inRight = true ∧
    v.program.DirectSupertype inRight.owner inRoot.owner ∧ ¬ v.NearestFirst := by
  obtain ⟨index, h⟩ := TypeIndex.exists_ofProgram?_iff.2 (show program.DistinctTypes by decide)
  have hv : Validator.ofProgram? program {} = .ok _ :=
    Validator.ofProgram?_eq_ok_iff.2 ⟨index, h, rfl⟩
  have hlookup := overridden_inImpl h
  have hm : inImpl ∈ program.methods := by
    simp [Program.methods, SourceUnit.methods, program, inImpl, root, left, right, both, impl]
  have hnearest : nearestParticipating ({} : Settings).names.reader (index.overridden inImpl) =
      [inRoot] := by
    rw [hlookup]
    rfl
  have hextends : program.DirectSupertype inRight.owner inRoot.owner :=
    Program.directSupertype_iff.2 ⟨by simp [Program.types, program, inRight],
      by simp [Program.types, program, inRoot],
      by simp [TypeDecl.directSupertypes, inRight, inRoot, right, root]⟩
  refine ⟨_, hv, .of_rank rank (by decide), hm, hnearest, hlookup, rfl, hextends, fun hfirst => ?_⟩
  -- the interface further down refutes that the nearest declaration is not overridden
  have hroot : ⟨0, inRoot⟩ ∈ index.overridden inImpl := by simp [hlookup]
  have hright : ⟨0, inRight⟩ ∈ index.overridden inImpl := by simp [hlookup]
  have hselected : inRoot ∈ nearestParticipating ({} : Settings).names.reader
      (index.overridden inImpl) := by simp [hnearest]
  exact hfirst inImpl hm _ hroot hselected _ hright rfl rfl (.single hextends)

/-- A class that implements the interface in which the method is declared anew. -/
def direct : TypeDecl :=
  { name := "test.Direct", kind := .classKind, interfaces := ["test.Right"], methods := [foo 6] }

/-- The class and the interfaces above it, none of which is reached twice. -/
def straight : Program :=
  ⟨[root, right, direct].map fun t => { types := [⟨t, .atLine 3⟩] }⟩

/-- From the class the way up leads through both interfaces, and from the first of them to the other
one. -/
theorem subtypesFirst_straight {index : TypeIndex} (h : TypeIndex.ofProgram? straight = .ok index)
    (hacyclic : straight.Acyclic) : straight.SubtypesFirst index := by
  have hentries := TypeIndex.find?_eq_find?_typeEntries h
  have hright : index.find? "test.Right" = some ⟨1, right⟩ := by rw [hentries]; rfl
  have hroot : index.find? "test.Root" = some ⟨0, root⟩ := by rw [hentries]; rfl
  have hstratified : straight.Stratified := ⟨by decide, by decide⟩
  have hpreorder : index.preorder (wellFounded_above h hacyclic) ⟨0, root⟩ = [⟨0, root⟩] :=
    preorder_eq _
  refine subtypesFirst_of_nodup h hstratified hacyclic fun t ht c hc => ?_
  have hcases : t = root ∨ t = right ∨ t = direct := by simpa [Program.types, straight] using ht
  -- the first type has nothing above it, the second one the first, and the third one the second
  rcases hcases with rfl | rfl | rfl
  · simp [TypeDecl.directSupertypes, root, known] at hc
  · obtain rfl : c = ⟨0, root⟩ := by
      simpa [TypeDecl.directSupertypes, right, known, hroot] using hc
    rw [expansion_eq_preorder rfl, hpreorder]
    decide
  · obtain rfl : c = ⟨1, right⟩ := by
      simpa [TypeDecl.directSupertypes, direct, known, hright] using hc
    have hexpansion : index.preorder (wellFounded_above h hacyclic) ⟨1, right⟩ =
        [⟨1, right⟩, ⟨0, root⟩] := by
      rw [preorder_eq]
      exact congrArg (⟨1, right⟩ :: ·) ((interfaceExpansion_cons_of_find?_eq_some hroot).trans
        (congrArg (· ++ _) hpreorder))
    rw [expansion_eq_preorder rfl, hexpansion]
    decide

/-- Where nothing is reached twice the nearest declaration is nearest. -/
theorem nearest_straight : ∃ index v, TypeIndex.ofProgram? straight = .ok index ∧
    straight.Acyclic ∧ straight.SubtypesFirst index ∧
    Validator.ofProgram? straight {} = .ok v ∧ v.NearestFirst := by
  obtain ⟨index, h⟩ := TypeIndex.exists_ofProgram?_iff.2 (show straight.DistinctTypes by decide)
  have hv : Validator.ofProgram? straight {} = .ok _ :=
    Validator.ofProgram?_eq_ok_iff.2 ⟨index, h, rfl⟩
  have hacyclic : straight.Acyclic := .of_rank rank (by decide)
  have hfirst := subtypesFirst_straight h hacyclic
  obtain ⟨hnearest, -⟩ := Validator.nearestFirst_exact h hacyclic
  exact ⟨index, _, h, hacyclic, hfirst, hv, hnearest hfirst _ hv⟩

end Shared

end OverrideCheck
