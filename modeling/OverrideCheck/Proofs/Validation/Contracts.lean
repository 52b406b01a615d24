import Mathlib
import OverrideCheck.Proofs.Validation.Answers
import OverrideCheck.Proofs.Validation.Contradictions

/-!
# Checked and published

The check goes over the methods of a program and so does the list of its contracts, each on its own
and with its own idea of which methods are left out. `contracts_agree_with_check` says that what is
published is what was checked. The contracts come unit by unit, and in each unit they are those of
the participating methods that the check tells no contradiction of, in order and one for each; so a
clean unit has as many contracts as methods that were checked in it.

* `Validator.unitContracts` — the contracts that one unit contributes;
* `Validator.contracts_eq_flatten` — the contracts of a program are those of its units, in order;
* `Validator.unitContracts_forall₂` — which methods of a unit they belong to, and where they are
  said to stand;
* `Validator.length_unitContracts_of_clean` — how many there are in a clean unit.
-/

namespace OverrideCheck

/-- What a partial function makes of a list belongs to the elements on which it is defined, one by
one. -/
theorem forall₂_filterMap {α β : Type} (f : α → Option β) (xs : List α) :
    List.Forall₂ (fun x y => f x = some y) (xs.filter fun x => (f x).isSome) (xs.filterMap f) := by
  induction xs with
  | nil => exact List.Forall₂.nil
  | cons x rest ih =>
    cases hx : f x with
    | none =>
      rw [List.filterMap_cons_none hx, List.filter_cons_of_neg (by simp [hx])]
      exact ih
    | some y =>
      rw [List.filterMap_cons_some hx, List.filter_cons_of_pos (by simp [hx])]
      exact List.Forall₂.cons hx ih

/-- A method's contract names the owner, the file and the line it was made for. -/
theorem RebindContract.location_of_ofMethod? {r : AnnotationReader} {owner : TypeDecl}
    {method : Located MethodDecl} {file : String} {c : RebindContract}
    (h : ofMethod? r owner method file = .ok c) :
    c.owner = owner.name ∧ c.location = ⟨file, method.position.line⟩ := by
  rw [ofMethod?] at h
  split at h
  · cases h
    exact ⟨rfl, rfl⟩
  · cases h

/-- In a clean report every outcome is that of a clean unit. -/
theorem ProgramReport.exists_reports_of_isClean {r : ProgramReport} (h : r.isClean = true) :
    ∃ reports : List UnitReport, r.outcomes = reports.map .clean := by
  obtain ⟨outcomes⟩ := r
  rw [isClean, List.all_eq_true] at h
  induction outcomes with
  | nil => exact ⟨[], rfl⟩
  | cons o rest ih =>
    obtain ⟨hfirst, hrest⟩ := List.forall_mem_cons.1 h
    obtain ⟨reports, rfl⟩ := ih hrest
    cases o with
    | clean report => exact ⟨report :: reports, rfl⟩
    | failed failure => cases hfirst

namespace Validator

variable {v : Validator} {u : SourceUnit} {i : Nat}

/-- The contracts that the unit at an index contributes. -/
def unitContracts (v : Validator) (u : SourceUnit) (i : Nat) : List RebindContract :=
  ((u.methods i).filter v.participates).filterMap fun m => (v.contractOf m).toOption

/-- The contracts of a program are those of its units, one unit after the other. -/
theorem contracts_eq_flatten (v : Validator) :
    v.contracts = (v.program.units.mapIdx fun i u => v.unitContracts u i).flatten := by
  rw [contracts, Program.methods, List.filter_flatMap, List.filterMap_flatMap, List.flatMap_def,
    List.mapIdx_eq_zipIdx_map]
  rfl

/-- A method has a contract that is published exactly when it takes part and the check tells of no
contradiction. -/
theorem isSome_toOption_contractOf {m : MethodRef} (path : String) (hm : v.participates m = true) :
    (v.contractOf m).toOption.isSome =
      !(v.methodDiagnostics path m).any Diagnostic.tellsContradiction := by
  -- what the check tells and whether there is a contract are two views of one result
  have htold := v.tellsContradiction_methodDiagnostics_iff path hm
  cases hc : v.contractOf m with
  | error found => simpa [Except.toOption, hc] using htold
  | ok c => simpa [Except.toOption, hc] using htold

/-- The contracts of a unit belong, one by one, to its participating methods that the check tells no
contradiction of. -/
theorem unitContracts_forall₂ (v : Validator) (u : SourceUnit) (i : Nat) :
    List.Forall₂ (fun m c => v.contractOf m = .ok c)
      ((u.methods i).filter fun m =>
        v.participates m && !(v.methodDiagnostics u.path m).any Diagnostic.tellsContradiction)
      (v.unitContracts u i) := by
  -- the check and the list of contracts leave out the same methods
  have hmethods : ((u.methods i).filter fun m =>
      v.participates m && !(v.methodDiagnostics u.path m).any Diagnostic.tellsContradiction) =
        ((u.methods i).filter v.participates).filter
          fun m => (v.contractOf m).toOption.isSome := by
    rw [List.filter_filter]
    refine List.filter_congr fun m _ => ?_
    cases hm : v.participates m with
    | false => simp
    | true => simp [isSome_toOption_contractOf u.path hm]
  rw [hmethods]
  -- what is left is that a contract listed for a method is the one the check makes of it
  refine (forall₂_filterMap _ _).imp fun m c hc => ?_
  cases hm : v.contractOf m with
  | error found =>
    rw [hm] at hc
    cases hc
  | ok d =>
    rw [hm] at hc
    exact congrArg Except.ok (Option.some.inj hc)

/-- A clean unit has as many contracts as methods that were checked in it. -/
theorem length_unitContracts_of_clean {report : UnitReport}
    (h : v.outcomeOf u i = .clean report) :
    (v.unitContracts u i).length = report.methodsChecked := by
  obtain ⟨hfound, rfl⟩ := (closeUnit_eq_clean_iff _ _ _).1 h
  -- nothing was found in the unit, so nothing tells of a contradiction either
  rw [← (v.unitContracts_forall₂ u i).length_eq]
  refine congrArg List.length (List.filter_congr fun m hm => ?_)
  rw [List.flatMap_eq_nil_iff.1 hfound m hm]
  simp

/-- In a clean program the units have as many contracts, one after the other, as methods that were
checked in them. -/
theorem map_length_unitContracts {reports : List UnitReport}
    (h : v.report.outcomes = reports.map .clean) :
    (v.program.units.mapIdx fun i u => v.unitContracts u i).map List.length =
      reports.map (·.methodsChecked) := by
  refine List.ext_getElem? fun i => ?_
  -- index by index, since the outcomes are known that way
  have houtcome : v.unitOutcome? i = reports[i]?.map .clean := by
    rw [← v.getElem?_outcomes_report, h, List.getElem?_map]
  rw [List.getElem?_map, List.getElem?_map, List.getElem?_mapIdx]
  -- at each index there is a unit and its report, or there is neither
  rw [unitOutcome?] at houtcome
  cases hu : v.program.units[i]? with
  | none =>
    rw [hu] at houtcome
    rw [Option.map_eq_none_iff.1 houtcome.symm]
    rfl
  | some u =>
    rw [hu] at houtcome
    obtain ⟨report, hreport, hclean⟩ := Option.map_eq_some_iff.1 houtcome.symm
    rw [hreport]
    exact congrArg some (length_unitContracts_of_clean hclean.symm)

/-- A contract of a method stands in the unit of the method, at the line of the method. -/
theorem location_of_contractOf (hu : v.program.units[i]? = some u) {m : MethodRef}
    (hm : m ∈ u.methods i) {c : RebindContract} (hc : v.contractOf m = .ok c) :
    c.owner = m.owner.name ∧ c.location = ⟨u.path, m.method.position.line⟩ := by
  have hpath : v.program.pathAt m.unitIndex = u.path := by
    rw [(SourceUnit.mem_methods_iff.1 hm).1, Program.pathAt, hu]
  rw [← hpath]
  exact RebindContract.location_of_ofMethod? hc

end Validator

/-- **What is published is what was checked.** The contracts of a program are refused for the reason
its report is refused for. If they are not, they come in slices, one for each unit and in order.
The slice of a unit has one contract for each of its participating methods that the check tells no
contradiction of, in type and declaration order, with the name of the method's owner, the path of
the unit and the line of the method; and none for any other method. A clean unit has as many as
methods were checked in it, and so has a clean program. -/
theorem contracts_agree_with_check (p : Program) (settings : Settings) :
    (∀ failure,
      contractsOf p settings = .error failure ↔ checkProgram p settings = .error failure) ∧
    ∀ v : Validator, Validator.ofProgram? p settings = .ok v →
      checkProgram p settings = .ok v.report ∧
      ∃ slices : List (List RebindContract), contractsOf p settings = .ok slices.flatten ∧
        slices.length = p.units.length ∧
        (∀ i (u : SourceUnit) slice, p.units[i]? = some u → slices[i]? = some slice →
          List.Forall₂
            (fun m c => v.contractOf m = .ok c ∧ c.owner = m.owner.name ∧
              c.location = ⟨u.path, m.method.position.line⟩)
            ((u.methods i).filter fun m =>
              v.participates m && !(v.methodDiagnostics u.path m).any Diagnostic.tellsContradiction)
            slice ∧
          ∀ report, v.report.outcomes[i]? = some (.clean report) →
            slice.length = report.methodsChecked) ∧
        (v.report.isClean = true → ∃ reports : List UnitReport,
          v.report.outcomes = reports.map .clean ∧
            slices.flatten.length = (reports.map (·.methodsChecked)).sum) := by
  refine ⟨fun failure => ?_, fun v hv => ⟨checkProgram_eq_report hv, ?_⟩⟩
  · -- a refusal says nothing of what was asked
    exact map_validatorFor_eq_error_iff.trans map_validatorFor_eq_error_iff.symm
  obtain rfl := Validator.program_of_ofProgram? hv
  refine ⟨v.program.units.mapIdx fun i u => v.unitContracts u i, ?_, List.length_mapIdx,
    fun i u slice hu hslice => ?_, fun hclean => ?_⟩
  · rw [contractsOf_eq_contracts hv, v.contracts_eq_flatten]
  · rw [List.getElem?_mapIdx, hu] at hslice
    obtain rfl : v.unitContracts u i = slice := Option.some.inj hslice
    constructor
    · have hmethods := (List.forall₂_and_left _ _).2
        ⟨fun m hm => (List.mem_filter.1 hm).1, v.unitContracts_forall₂ u i⟩
      refine hmethods.imp ?_
      rintro m c ⟨hm, hc⟩
      exact ⟨hc, Validator.location_of_contractOf hu hm hc⟩
    · intro report hreport
      rw [v.getElem?_outcomes_report, Validator.unitOutcome?, hu] at hreport
      exact Validator.length_unitContracts_of_clean (Option.some.inj hreport)
  · obtain ⟨reports, hreports⟩ := ProgramReport.exists_reports_of_isClean hclean
    refine ⟨reports, hreports, ?_⟩
    -- the slices are laid end to end, so their lengths add up
    rw [List.length_flatten, Validator.map_length_unitContracts hreports]

/-! ### A method that contradicts itself beside one that does not -/

namespace Beside

/-- A method whose annotation names a type that a parameter of it carries as well. -/
def twice : Located MethodDecl :=
  ⟨{ name := "twice"
     params := [{ name := "type", type := ⟨"java.lang.Class"⟩
                  annotations := [{ name := "com.google.gwt.core.shared.Rebind.Type" }] }]
     annotations := [{ name := "com.google.gwt.core.shared.Rebind"
                       values := .ofList [("type", .classLiteral "java.lang.String")] }] },
    .atLine 4⟩

/-- A method that takes part and leaves its type open. -/
def once : Located MethodDecl :=
  ⟨{ name := "once", annotations := [{ name := "com.google.gwt.core.shared.Rebind" }] }, .atLine 5⟩

/-- An interface with both, and with a method that takes no part. -/
def api : TypeDecl :=
  { name := "test.Api", kind := .interfaceKind
    methods := [twice, once, ⟨{ name := "never" }, .atLine 6⟩] }

def unit : SourceUnit := { types := [⟨api, .atLine 3⟩] }

def program : Program := ⟨[unit]⟩

/-- Of the three methods the one in the middle has its contract published. -/
theorem once_published : ∃ v, Validator.ofProgram? program {} = .ok v ∧
    ∃ c, contractsOf program {} = .ok [c] ∧ v.contractOf ⟨0, api, once⟩ = .ok c ∧
      c.owner = "test.Api" ∧ c.location = ⟨"test/Api.java", 5⟩ := by
  obtain ⟨v, hv⟩ : ∃ v, Validator.ofProgram? program {} = .ok v :=
    Validator.exists_ofProgram?_iff.2 (by decide)
  -- which methods are kept is computed, and the theorem says what their contracts are
  have hkept : (Validator.ofProgram? program {}).map (fun v => (unit.methods 0).filter fun m =>
      v.participates m && !(v.methodDiagnostics unit.path m).any Diagnostic.tellsContradiction) =
        .ok [⟨0, api, once⟩] := by cbv
  rw [hv, Except.map, Except.ok.injEq] at hkept
  obtain ⟨-, slices, hcontracts, hlength, hslices, -⟩ :=
    (contracts_agree_with_check program {}).2 _ hv
  obtain ⟨slice, rfl⟩ := List.length_eq_one_iff.1 hlength
  obtain ⟨hslice, -⟩ := hslices 0 unit slice rfl rfl
  rw [hkept, List.forall₂_cons_left_iff] at hslice
  obtain ⟨c, rest, ⟨hc, howner, hlocation⟩, hrest, rfl⟩ := hslice
  obtain rfl := List.forall₂_nil_left_iff.1 hrest
  exact ⟨v, hv, c, hcontracts, hc, howner, hlocation⟩

end Beside

end OverrideCheck
