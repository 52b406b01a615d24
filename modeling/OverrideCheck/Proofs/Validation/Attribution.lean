import OverrideCheck.Proofs.Hierarchy.Completeness
import OverrideCheck.Proofs.Validation.Contracts

/-!
# Names and places

The index of a program is made of names, and what is found through it carries the number of a unit.
Both have to be right for a contract to be told of the unit that declares it: a name must lead to
one type only, and the number must be that of a unit that has this type. The first is what the index
insists on when it is built; the second is carried from there through the walk over the supertypes
and the choice of the nearest declarations to the places at which a path is looked up.

* `Program.FirstRepeated` — the first type whose name has already occurred;
* `TypeIndex.ofProgram?_eq_error_iff_firstRepeated` — a program is refused for that type;
* `MethodRef.StandsIn`, `MethodRef.standsIn_iff` — a method stands in the unit it is said to stand
  in, which is what it is to be a method of the program;
* `TypeDecl.FirstMethod` — the first method of a type with a given signature;
* `Validator.consulted` — the declarations whose contracts are asked for on behalf of a method;
* `Validator.Attributed` — a contract is told of the unit that declares its method;
* `types_indexed_and_placed` — which programs are accepted, and that nothing outside them is ever
  pointed at.
-/

namespace OverrideCheck

/-! ### The first repeated name -/

/-- The first name that repeats another one is met after different names, one of which it repeats;
the names seen before count as well. -/
theorem firstRepeated?_eq_some_iff {seen names : List String} {name : String} :
    firstRepeated? seen names = some name ↔
      ∃ before after, names = before ++ name :: after ∧ before.Nodup ∧ before.Disjoint seen ∧
        (name ∈ seen ∨ name ∈ before) := by
  constructor
  · -- the names seen grow as the scan goes on, so the induction is over any of them
    intro h
    induction names generalizing seen with
    | nil => cases h
    | cons first rest ih =>
      rw [firstRepeated?] at h
      split at h
      · next hseen =>
        obtain rfl : first = name := Option.some.inj h
        exact ⟨[], rest, rfl, List.nodup_nil, List.disjoint_nil_left _, Or.inl hseen⟩
      · next hnew =>
        -- for the rest the first name is one that was seen, and now it is one that comes before
        obtain ⟨before, after, rfl, hnodup, hdisjoint, hname⟩ := ih h
        obtain ⟨hfirst, hdisjoint⟩ := List.disjoint_cons_right.1 hdisjoint
        refine ⟨first :: before, after, rfl, List.nodup_cons.2 ⟨hfirst, hnodup⟩,
          List.disjoint_cons_left.2 ⟨hnew, hdisjoint⟩, ?_⟩
        rw [List.mem_cons] at hname
        rw [List.mem_cons]
        tauto
  · rintro ⟨before, after, rfl, hnodup, hdisjoint, hname⟩
    induction before generalizing seen with
    | nil =>
      rw [List.nil_append, firstRepeated?, if_pos (hname.resolve_right List.not_mem_nil)]
    | cons first rest ih =>
      -- the same exchange the other way: the first of those before joins those seen
      obtain ⟨hfirst, hnodup⟩ := List.nodup_cons.1 hnodup
      obtain ⟨hnew, hdisjoint⟩ := List.disjoint_cons_left.1 hdisjoint
      rw [List.cons_append, firstRepeated?, if_neg hnew]
      refine ih hnodup (List.disjoint_cons_right.2 ⟨hfirst, hdisjoint⟩) ?_
      rw [List.mem_cons] at hname
      rw [List.mem_cons]
      tauto

/-- `t` is the first type of the program, in unit and declaration order, whose name has already
occurred: the types before it bear different names, and one of these is its own. -/
def Program.FirstRepeated (p : Program) (t : TypeDecl) : Prop :=
  ∃ before after, p.types = before ++ t :: after ∧ (before.map (·.name)).Nodup ∧
    t.name ∈ before.map (·.name)

/-- A program is refused for the name of the first type whose name has already occurred. -/
theorem TypeIndex.ofProgram?_eq_error_iff_firstRepeated {p : Program} {name : String} :
    ofProgram? p = .error name ↔ ∃ t, p.FirstRepeated t ∧ t.name = name := by
  rw [ofProgram?_eq_error_iff, firstRepeated?_eq_some_iff]
  constructor
  · rintro ⟨before, after, hnames, hnodup, -, hname⟩
    -- the names are those of types, so they are split where the types are
    obtain ⟨types, rest, htypes, rfl, hrest⟩ := List.map_eq_append_iff.1 hnames
    obtain ⟨t, later, rfl, rfl, rfl⟩ := List.map_eq_cons_iff.1 hrest
    exact ⟨t, ⟨types, later, htypes, hnodup, hname.resolve_left List.not_mem_nil⟩, rfl⟩
  · rintro ⟨t, ⟨before, after, htypes, hnodup, hname⟩, rfl⟩
    refine ⟨before.map (·.name), after.map (·.name), ?_, hnodup, List.disjoint_nil_right _,
      Or.inr hname⟩
    rw [htypes, List.map_append, List.map_cons]

/-! ### Places -/

/-- A method stands where it is said to stand: the program has a unit of that number, the unit
declares the owner, and the owner declares the method. -/
structure MethodRef.StandsIn (m : MethodRef) (p : Program) : Prop where
  inside : m.unitIndex < p.units.length
  owner : m.owner ∈ p.units[m.unitIndex].types.map (·.node)
  method : m.method ∈ m.owner.methods

/-- The methods of a program are those that stand where they are said to. -/
theorem MethodRef.standsIn_iff {m : MethodRef} {p : Program} : m.StandsIn p ↔ m ∈ p.methods := by
  rw [Program.mem_methods_iff]
  constructor
  · rintro ⟨hinside, howner, hmethod⟩
    obtain ⟨t, ht, heq⟩ := List.mem_map.1 howner
    exact ⟨_, List.getElem?_eq_getElem hinside, SourceUnit.mem_methods_iff.2
      ⟨rfl, t, ht, heq, hmethod⟩⟩
  · rintro ⟨u, hu, hm⟩
    obtain ⟨hinside, rfl⟩ := List.getElem?_eq_some_iff.1 hu
    obtain ⟨-, t, ht, heq, hmethod⟩ := SourceUnit.mem_methods_iff.1 hm
    exact ⟨hinside, List.mem_map.2 ⟨t, ht, heq⟩, hmethod⟩

/-- `d` is the first method of the type `t` with the signature `key`. -/
structure TypeDecl.FirstMethod (t : TypeDecl) (key : ErasedSignature) (d : Located MethodDecl) :
    Prop where
  signature : d.node.erasedSignature = key
  first : ∃ before after, t.methods = before ++ d :: after ∧
    ∀ e ∈ before, e.node.erasedSignature ≠ key

/-- The method that is found for a signature is the first one that has it. -/
theorem TypeDecl.findMethod?_eq_some_iff {t : TypeDecl} {key : ErasedSignature}
    {d : Located MethodDecl} : t.findMethod? key = some d ↔ t.FirstMethod key d := by
  rw [findMethod?, List.find?_eq_some_iff_append]
  constructor
  · rintro ⟨hkey, before, after, hsplit, hbefore⟩
    exact ⟨by simpa using hkey, before, after, hsplit, by simpa using hbefore⟩
  · rintro ⟨hkey, before, after, hsplit, hbefore⟩
    exact ⟨by simpa using hkey, before, after, hsplit, by simpa using hbefore⟩

/-- A declaration that a method overrides is the first one of its signature in its owner. -/
theorem TypeIndex.firstMethod_of_mem_overridden {index : TypeIndex} {m : MethodRef} {a : Ancestor}
    (ha : a ∈ index.overridden m) :
    a.decl.owner.FirstMethod m.method.node.erasedSignature a.decl.method := by
  obtain ⟨e, -, -, howner, hfound⟩ := exists_entry_of_mem_overridden ha
  rw [howner]
  exact TypeDecl.findMethod?_eq_some_iff.1 hfound

/-! ### Paths that are looked up -/

namespace Validator

variable {v : Validator} {p : Program} {settings : Settings}

/-- The declarations whose contracts are asked for when a method is checked: the method itself, and
the nearest participating declarations that it overrides. -/
def consulted (v : Validator) (m : MethodRef) : List MethodRef := m :: v.nearest m

/-- The declarations that a method overrides are methods of the program. -/
theorem decl_mem_methods (hv : ofProgram? p settings = .ok v) {m : MethodRef} {a : Ancestor}
    (ha : a ∈ v.lookup m) : a.decl ∈ p.methods := by
  obtain ⟨index, hindex, rfl⟩ := ofProgram?_eq_ok_iff.1 hv
  exact TypeIndex.overridden_mem_methods hindex ha

/-- No other contract has a part in the problems of a method: a validator with other paths, which
makes other contracts, finds the same problems if it makes the same contracts of these. -/
theorem methodProblems_congr_consulted {w : Validator} {m : MethodRef}
    (hlookup : w.lookup = v.lookup) (hreader : w.reader = v.reader) (hpolicy : w.policy = v.policy)
    (h : ∀ d ∈ v.consulted m, w.contractOf d = v.contractOf d) :
    w.methodProblems m = v.methodProblems m := by
  obtain ⟨hown, hnearest⟩ := List.forall_mem_cons.1 h
  have hancestors : w.nearest m = v.nearest m := by rw [nearest, nearest, hreader, hlookup]
  have hconflicts (c : RebindContract) :
      (v.nearest m).filter (w.conflicts c) = (v.nearest m).filter (v.conflicts c) :=
    List.filter_congr fun d hd => by rw [conflicts, conflicts, hnearest d hd]
  have hmisses : w.missesType = v.missesType := by
    funext c ancestors
    rw [missesType, missesType, hpolicy]
  -- the problems of the method are made of these four and nothing else
  unfold methodProblems participates participantProblems
  simp only [hreader, hown, hancestors, hconflicts, hmisses]

/-- Nothing is consulted but the method and what it overrides. -/
theorem consulted_subset_lookup {m : MethodRef} :
    v.consulted m ⊆ m :: (v.lookup m).map (·.decl) := by
  refine List.cons_subset_cons m fun d hd => ?_
  obtain ⟨a, ha, rfl, -⟩ := exists_ancestor_of_mem_nearest hd
  exact List.mem_map_of_mem ha

/-- For a method of the program, only methods of the program are consulted. -/
theorem consulted_subset_methods (hv : ofProgram? p settings = .ok v) {m : MethodRef}
    (hm : m ∈ p.methods) : v.consulted m ⊆ p.methods := by
  refine List.Subset.trans consulted_subset_lookup (List.cons_subset.2 ⟨hm, fun d hd => ?_⟩)
  obtain ⟨a, ha, rfl⟩ := List.mem_map.1 hd
  exact decl_mem_methods hv ha

/-- The contracts that are listed are those of the program's own participating methods. -/
theorem exists_of_mem_contracts {c : RebindContract} (hc : c ∈ v.contracts) :
    ∃ m ∈ v.program.methods, v.contractOf m = .ok c := by
  obtain ⟨m, hm, hcontract⟩ := List.mem_filterMap.1 hc
  refine ⟨m, (List.mem_filter.1 hm).1, ?_⟩
  cases hfound : v.contractOf m with
  | error found =>
    rw [hfound] at hcontract
    cases hcontract
  | ok d =>
    rw [hfound] at hcontract
    exact congrArg Except.ok (Option.some.inj hcontract)

/-- The contract of a method of the program is told of the unit that declares the method: the path
is looked up inside the program, at the number of a unit that has the method's owner. -/
structure Attributed (v : Validator) (p : Program) (m : MethodRef) : Prop extends m.StandsIn p where
  path : p.pathAt m.unitIndex = p.units[m.unitIndex].path
  contract : ∀ c, v.contractOf m = .ok c →
    c.owner = m.owner.name ∧ c.location = ⟨p.units[m.unitIndex].path, m.method.position.line⟩

theorem attributed_of_mem_methods (hv : ofProgram? p settings = .ok v) {m : MethodRef}
    (hm : m ∈ p.methods) : v.Attributed p m := by
  have hstands := MethodRef.standsIn_iff.2 hm
  have hunit := List.getElem?_eq_getElem hstands.inside
  -- the unit in whose list the method stands is the one at its number
  obtain ⟨u, hu, hmu⟩ := Program.mem_methods_iff.1 hm
  obtain rfl := Option.some.inj (hunit.symm.trans hu)
  obtain rfl := program_of_ofProgram? hv
  exact
    { toStandsIn := hstands
      path := by rw [Program.pathAt, hunit]
      contract := fun c hc => location_of_contractOf hunit hmu hc }

end Validator

/-- **The index tells types apart by name, and never points outside the program.** A program has an
index exactly when its types bear different names; otherwise it is refused for the first type whose
name has already occurred, and whatever is asked about it is refused for that type too. In a program
that has one, every declaration that a method overrides stands in the unit it is said to stand in,
and is the first of the method's erased signature in its owner. So whichever contract is asked for,
be it for checking a method or for the list of contracts, the path that goes into it is looked up
inside the program and is that of the unit that declares the method. -/
theorem types_indexed_and_placed (p : Program) :
    ((∃ index, TypeIndex.ofProgram? p = .ok index) ↔ p.DistinctTypes) ∧
    (∀ name, TypeIndex.ofProgram? p = .error name ↔ ∃ t, p.FirstRepeated t ∧ t.name = name) ∧
    ∀ settings : Settings,
      (∀ t, p.FirstRepeated t →
        checkProgram p settings = .error (.repeatedType t.name) ∧
        contractsOf p settings = .error (.repeatedType t.name) ∧
        (Failure.repeatedType t.name).message =
          "Model error: type '" ++ t.name ++ "' is declared more than once") ∧
      ∀ v, Validator.ofProgram? p settings = .ok v →
        (∀ m ∈ p.methods,
          (∀ a ∈ v.lookup m, a.decl.StandsIn p ∧
            a.decl.owner.FirstMethod m.method.node.erasedSignature a.decl.method) ∧
          (∀ w : Validator, w.lookup = v.lookup → w.reader = v.reader → w.policy = v.policy →
            (∀ d ∈ v.consulted m, w.contractOf d = v.contractOf d) →
              w.methodProblems m = v.methodProblems m) ∧
          v.consulted m ⊆ m :: (v.lookup m).map (·.decl) ∧
          ∀ d ∈ v.consulted m, v.Attributed p d) ∧
        ∀ c ∈ v.contracts, ∃ m, v.contractOf m = .ok c ∧ v.Attributed p m := by
  refine ⟨TypeIndex.exists_ofProgram?_iff,
    fun name => TypeIndex.ofProgram?_eq_error_iff_firstRepeated, fun settings => ⟨?_, ?_⟩⟩
  · -- without an index there is no validator, and so no answer of any kind
    intro t ht
    have hindex := TypeIndex.ofProgram?_eq_error_iff_firstRepeated.2 ⟨t, ht, rfl⟩
    exact ⟨map_validatorFor_eq_error_iff.2 ⟨_, hindex, rfl⟩,
      map_validatorFor_eq_error_iff.2 ⟨_, hindex, rfl⟩, rfl⟩
  · intro v hv
    refine ⟨fun m hm => ⟨fun a ha => ⟨?_, ?_⟩,
      fun w => Validator.methodProblems_congr_consulted, ?_, fun d hd => ?_⟩, fun c hc => ?_⟩
    · exact MethodRef.standsIn_iff.2 (Validator.decl_mem_methods hv ha)
    · obtain ⟨index, -, rfl⟩ := Validator.ofProgram?_eq_ok_iff.1 hv
      exact TypeIndex.firstMethod_of_mem_overridden ha
    · exact Validator.consulted_subset_lookup
    · exact Validator.attributed_of_mem_methods hv (Validator.consulted_subset_methods hv hm hd)
    · obtain ⟨m, hm, hcontract⟩ := Validator.exists_of_mem_contracts hc
      rw [Validator.program_of_ofProgram? hv] at hm
      exact ⟨m, hcontract, Validator.attributed_of_mem_methods hv hm⟩

/-! ### An interface in another unit -/

namespace Apart

/-- A method that takes part. -/
def foo : Located MethodDecl :=
  ⟨{ name := "foo", annotations := [{ name := "com.google.gwt.core.shared.Rebind" }] }, .atLine 4⟩

def api : TypeDecl := { name := "test.Api", kind := .interfaceKind, methods := [foo] }

def impl : TypeDecl :=
  { name := "test.Impl", kind := .classKind, interfaces := ["test.Api"], methods := [foo] }

/-- A class before the interface that it implements, each in a unit of its own. -/
def program : Program :=
  ⟨[{ types := [⟨impl, .atLine 3⟩] },
    { types := [⟨api, .atLine 3⟩], path? := some "lib/Api.java" }]⟩

/-- The same with a second interface of the name, beside a type of a further name. -/
def repeated : Program :=
  program.merge ⟨[{ types := [⟨api, .atLine 3⟩, ⟨{ impl with name := "test.More" }, .atLine 9⟩] }]⟩

/-- The contract that the method of the class is compared with is told of the unit of the interface;
with the second interface, a program is refused for its name. -/
theorem api_told_of_its_unit :
    (∃ v, Validator.ofProgram? program {} = .ok v ∧ ⟨0, impl, foo⟩ ∈ program.methods ∧
      ⟨1, api, foo⟩ ∈ v.consulted ⟨0, impl, foo⟩ ∧ 1 < program.units.length ∧
      ∀ c, v.contractOf ⟨1, api, foo⟩ = .ok c → c.location = ⟨"lib/Api.java", 4⟩) ∧
    repeated.FirstRepeated api ∧ checkProgram repeated {} = .error (.repeatedType "test.Api") := by
  constructor
  · obtain ⟨v, hv⟩ : ∃ v, Validator.ofProgram? program {} = .ok v :=
      Validator.exists_ofProgram?_iff.2 (by decide)
    have hm : (⟨0, impl, foo⟩ : MethodRef) ∈ program.methods := by
      simp [Program.methods, SourceUnit.methods, program, impl]
    have hconsulted : (Validator.ofProgram? program {}).map (·.consulted ⟨0, impl, foo⟩) =
        .ok [⟨0, impl, foo⟩, ⟨1, api, foo⟩] := by cbv
    rw [hv, Except.map, Except.ok.injEq] at hconsulted
    have hapi : (⟨1, api, foo⟩ : MethodRef) ∈ v.consulted ⟨0, impl, foo⟩ := by
      rw [hconsulted]
      exact List.mem_cons_of_mem _ (List.mem_singleton_self _)
    obtain ⟨-, -, -, hattributed⟩ := (((types_indexed_and_placed program).2.2 {}).2 v hv).1 _ hm
    have htold := hattributed _ hapi
    exact ⟨v, hv, hm, hapi, htold.inside, fun c hc => (htold.contract c hc).2⟩
  · have hfirst : repeated.FirstRepeated api :=
      ⟨[impl, api], [{ impl with name := "test.More" }], rfl, by decide, by decide⟩
    exact ⟨hfirst, (((types_indexed_and_placed repeated).2.2 {}).1 api hfirst).1⟩

end Apart

end OverrideCheck
