import OverrideCheck.Proofs.Contract.Canonical
import OverrideCheck.Proofs.Contract.Mismatches
import OverrideCheck.Proofs.Hierarchy.Completeness
import OverrideCheck.Validation.Basic

/-!
# Contracts that are really compared

The comparison of contracts is lenient in two places. It takes two parameter-supplied types for the
same wherever the parameters stand, and it compares roles only as far as both lists reach. Neither
leniency shows between the contracts of a method and of a declaration that it overrides:

* `RebindContract.typeSource_eq_of_compatible` — canonical contracts that are compatible have the
  same type source, since the only position that supplies the type is the one whose role says so;
* `length_roles_eq_of_overridden` — a method and a declaration it overrides have the same number of
  roles, since their erased signatures are equal;
* `compatible_iff_rules_eq_of_overridden` — so compatible contracts are those of the same rules.
-/

namespace OverrideCheck

namespace RebindContract

/-- Canonical contracts that are compatible have the same type source. -/
theorem typeSource_eq_of_compatible {c d : RebindContract} (hc : c.Canonical) (hd : d.Canonical)
    (h : c.Compatible d) : c.typeSource = d.typeSource := by
  obtain ⟨hagree, hroles⟩ := compatible_iff.1 h
  rcases TypeSource.agrees_iff.1 hagree with heq | ⟨i, j, hi, -⟩
  · exact heq
  · -- the position is read off the roles, which both contracts share
    have hcarrier : d.roles[i]? = some .typeCarrier := hroles ▸ (hc.parameter_iff i).1 hi
    rw [hi, (hd.parameter_iff i).2 hcarrier]

/-- Canonical contracts are compatible exactly when they have the same rules. -/
theorem compatible_iff_rules_eq {c d : RebindContract} (hc : c.Canonical) (hd : d.Canonical) :
    c.Compatible d ↔ c.typeSource = d.typeSource ∧ c.roles = d.roles := by
  constructor
  · exact fun h => ⟨typeSource_eq_of_compatible hc hd h, (compatible_iff.1 h).2⟩
  · rintro ⟨hsource, hroles⟩
    exact compatible_iff.2 ⟨hsource ▸ c.typeSource.agrees_refl, hroles⟩

/-- Contracts with as many roles have no mismatch in the number of parameters. -/
theorem paramCount_notMem_mismatches {c d : RebindContract}
    (h : c.roles.length = d.roles.length) (m n : Nat) : .paramCount m n ∉ c.mismatches d := by
  -- with equal lengths the account is a source mismatch and role mismatches, nothing else
  rw [mismatches_eq_account, if_pos h]
  intro hmem
  split at hmem
  · simp [roleMismatchAt] at hmem
  · simp [roleMismatchAt] at hmem

end RebindContract

/-- The contract of a method has as many roles as the contract of a declaration it overrides. -/
theorem length_roles_eq_of_overridden {p : Program} {index : TypeIndex}
    (h : TypeIndex.ofProgram? p = .ok index) {m : MethodRef} (hm : m ∈ p.methods) {a : Ancestor}
    (ha : a ∈ index.overridden m) {r : AnnotationReader} {file file' : String}
    {c d : RebindContract} (hc : RebindContract.ofMethod? r m.owner m.method file = .ok c)
    (hd : RebindContract.ofMethod? r a.decl.owner a.decl.method file' = .ok d) :
    c.roles.length = d.roles.length := by
  obtain ⟨-, -, -, -, hsignature⟩ :=
    TypeIndex.overridden_sound h (Program.owner_mem_types hm).1 ha
  -- equal erased signatures list equally many parameters
  have hparams : a.decl.method.node.params.length = m.method.node.params.length := by
    simpa [MethodDecl.erasedSignature] using
      congrArg (fun s => s.params.length) hsignature
  rw [(RebindContract.parts_of_ofMethod? hc).1, (RebindContract.parts_of_ofMethod? hd).1,
    List.length_map, List.length_map, hparams]

/-- **On real override pairs compatibility is equality of the rules.** In every accepted program,
whoever reads the annotations: if a method and a declaration it overrides both have contracts, then
these are compatible exactly when they have the same type source, the position of the carrier
included, and the same roles. They have as many roles, so no comparison of them tells of different
numbers of parameters, and none stops short of the end of either list. -/
theorem compatible_iff_rules_eq_of_overridden {p : Program} {index : TypeIndex}
    (h : TypeIndex.ofProgram? p = .ok index) (r : AnnotationReader) {m : MethodRef}
    (hm : m ∈ p.methods) {a : Ancestor} (ha : a ∈ index.overridden m) {c d : RebindContract}
    (hc : RebindContract.ofMethod? r m.owner m.method (p.pathAt m.unitIndex) = .ok c)
    (hd : RebindContract.ofMethod? r a.decl.owner a.decl.method (p.pathAt a.decl.unitIndex) =
      .ok d) :
    (c.Compatible d ↔ c.typeSource = d.typeSource ∧ c.roles = d.roles) ∧
    (∀ i j, c.typeSource = .parameter i → d.typeSource = .parameter j → c.Compatible d → i = j) ∧
    c.roles.length = d.roles.length ∧
    ∀ children ancestors, .paramCount children ancestors ∉ c.mismatches d := by
  -- extracted contracts are canonical; that, and the equal lengths, is all that is used of them
  have hcanonical := RebindContract.canonical_of_ofMethod? hc
  have hcanonical' := RebindContract.canonical_of_ofMethod? hd
  have hlength := length_roles_eq_of_overridden h hm ha hc hd
  refine ⟨RebindContract.compatible_iff_rules_eq hcanonical hcanonical', fun i j hi hj hcd => ?_,
    hlength, fun _ _ => RebindContract.paramCount_notMem_mismatches hlength _ _⟩
  have hsource := RebindContract.typeSource_eq_of_compatible hcanonical hcanonical' hcd
  rw [hi, hj] at hsource
  exact TypeSource.parameter.inj hsource

/-! ### A carrier that has moved -/

namespace Shifted

/-- A parameter that bears a type marker. -/
def carrier (name : String) : Param :=
  { name := name, type := ⟨"java.lang.Class<?>"⟩
    annotations := [{ name := "com.google.gwt.core.shared.Rebind.Type" }] }

/-- A parameter without a marker. -/
def plain (name : String) : Param := { name := name, type := ⟨"java.lang.Class"⟩ }

/-- A method whose first parameter carries the type. -/
def early : Located MethodDecl := ⟨{ name := "foo", params := [carrier "a", plain "b"] }, .atLine 4⟩

/-- A method whose second parameter carries the type. -/
def late : Located MethodDecl := ⟨{ name := "foo", params := [plain "a", carrier "b"] }, .atLine 6⟩

def api : TypeDecl := { name := "test.Api", kind := .interfaceKind, methods := [early] }

def impl : TypeDecl :=
  { name := "test.Impl", kind := .classKind, interfaces := ["test.Api"], methods := [late] }

/-- An interface and a class that moves the carrier to the other parameter. -/
def program : Program :=
  ⟨[{ types := [⟨api, .atLine 3⟩] }, { types := [⟨impl, .atLine 3⟩] }]⟩

def inImpl : MethodRef := ⟨1, impl, late⟩

def inApi : Ancestor := ⟨0, 0, api, early⟩

/-- The two type sources agree, and the contracts are not compatible all the same. -/
theorem moved_carrier_incompatible : ∃ index c d, TypeIndex.ofProgram? program = .ok index ∧
    inImpl ∈ program.methods ∧ inApi ∈ index.overridden inImpl ∧
    RebindContract.ofMethod? ({} : AnnotationNames).reader impl late "test/Impl.java" = .ok c ∧
    RebindContract.ofMethod? ({} : AnnotationNames).reader api early "test/Api.java" = .ok d ∧
    c.typeSource.agrees d.typeSource = true ∧ ¬ c.Compatible d := by
  obtain ⟨index, h⟩ := TypeIndex.exists_ofProgram?_iff.2 (show program.DistinctTypes by decide)
  have hm : inImpl ∈ program.methods := by
    simp [Program.methods, SourceUnit.methods, program, inImpl, api, impl]
  have hapi : index.find? "test.Api" = some ⟨0, api⟩ := by
    rw [TypeIndex.find?_eq_find?_typeEntries h]
    rfl
  have ha : inApi ∈ index.overridden inImpl := by
    have hbranches : index.branches impl = [[⟨0, api⟩]] := by
      simp [TypeIndex.branches_eq, TypeDecl.directSupertypes, impl,
        TypeIndex.branchTypesFrom_of_find?_eq_some, hapi, TypeIndex.supertypesFrom_eq,
        TypeIndex.superclassChain, TypeIndex.interfacesAbove, api]
    have hfound : api.findMethod? late.node.erasedSignature = some early := by cbv
    simp [TypeIndex.overridden, inImpl, hbranches, TypeEntry.declaration?, hfound, inApi]
  have hc : RebindContract.ofMethod? ({} : AnnotationNames).reader impl late "test/Impl.java" =
      .ok ⟨"test.Impl", .ofMethod late.node, .parameter 1, [.plain, .typeCarrier],
        ⟨"test/Impl.java", 6⟩⟩ := by cbv
  have hd : RebindContract.ofMethod? ({} : AnnotationNames).reader api early "test/Api.java" =
      .ok ⟨"test.Api", .ofMethod early.node, .parameter 0, [.typeCarrier, .plain],
        ⟨"test/Api.java", 4⟩⟩ := by cbv
  obtain ⟨-, hmoved, -, -⟩ :=
    compatible_iff_rules_eq_of_overridden h ({} : AnnotationNames).reader hm ha hc hd
  -- by the theorem, contracts that are compatible have their carriers at the same place
  refine ⟨index, _, _, h, hm, ha, hc, hd, rfl, fun hcd => ?_⟩
  exact absurd (hmoved 1 0 rfl rfl hcd) (by decide)

end Shifted

end OverrideCheck
