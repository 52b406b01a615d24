import Mathlib
import OverrideCheck.Check
import OverrideCheck.Proofs.Validation.Contradictions

/-!
# How strict the policies are

A policy is as strict as another one if it refuses whatever the other one refuses; so refusing
nothing is the laxest policy and refusing everything the strictest. The diagnostics of a stricter
policy are not more diagnostics: a method that is refused for want of a type is not compared with
anything, so that the conflicts a laxer policy reports are replaced by the missing type. What grows
with strictness is the set of methods that have a problem, and with it the set of units that fail.

* `Validator.under` — the validator under another policy;
* `Validator.methodProblems_eq_nil_of_le` — a method without problems has none under a laxer policy;
* `Validator.methodProblems_under_eq` — the policy is asked about contracts without a type only;
* `Validator.filter_diagnostics_under` — what is told of contradictions is the same under each
  policy;
* `policies_ordered_by_strictness` — what this says of the outcomes of units and of programs.

That a suppressed conflict leaves a problem behind is the step from one policy to the next:
`missesType` suppresses the comparisons of a method exactly where it reports the method.
-/

namespace OverrideCheck

namespace UnspecifiedPolicy

/-- A policy is at most as strict as one that refuses whatever it refuses. -/
instance : LE UnspecifiedPolicy where
  le lax strict := ∀ overrides, lax.rejects overrides = true → strict.rejects overrides = true

theorem allow_le (policy : UnspecifiedPolicy) : allow ≤ policy :=
  fun _ hrejects => absurd hrejects Bool.false_ne_true

theorem le_deny (policy : UnspecifiedPolicy) : policy ≤ deny := fun _ _ => rfl

end UnspecifiedPolicy

namespace Validator

/-- The validator under another policy. -/
def under (v : Validator) (policy : UnspecifiedPolicy) : Validator := { v with policy }

variable {v : Validator} {m : MethodRef} {a b lax strict : UnspecifiedPolicy}

@[simp] theorem participates_under (m : MethodRef) :
    (v.under a).participates m = v.participates m := rfl

@[simp] theorem contractOf_under (m : MethodRef) : (v.under a).contractOf m = v.contractOf m := rfl

@[simp] theorem nearest_under (m : MethodRef) : (v.under a).nearest m = v.nearest m := rfl

@[simp] theorem conflicts_under (c : RebindContract) (m : MethodRef) :
    (v.under a).conflicts c m = v.conflicts c m := rfl

theorem ofProgram?_under {p : Program} {settings : Settings} (hv : ofProgram? p settings = .ok v)
    (policy : UnspecifiedPolicy) :
    ofProgram? p { settings with unspecified := policy } = .ok (v.under policy) := by
  obtain ⟨index, hindex, rfl⟩ := ofProgram?_eq_ok_iff.1 hv
  exact ofProgram?_eq_ok_iff.2 ⟨index, hindex, rfl⟩

/-! ### Problems under a stricter policy -/

/-- A contract that a policy refuses is refused by every stricter one. -/
theorem missesType_of_le (hle : lax ≤ strict) {c : RebindContract} {ancestors : List MethodRef}
    (h : (v.under lax).missesType c ancestors = true) :
    (v.under strict).missesType c ancestors = true := by
  -- the contract and the ancestors are the same; only the policy's word on them can differ
  obtain ⟨hsource, hrejects⟩ := Bool.and_eq_true_iff.1 h
  exact Bool.and_eq_true_iff.2 ⟨hsource, hle _ hrejects⟩

/-- A method that has no problem under a policy has none under a laxer one: nothing is refused that
was not, so it is compared with the same declarations. -/
theorem methodProblems_eq_nil_of_le (hle : lax ≤ strict)
    (h : (v.under strict).methodProblems m = []) : (v.under lax).methodProblems m = [] := by
  by_cases hm : v.participates m = true
  · obtain ⟨c, hc, hmisses, hconforms⟩ := (methodProblems_eq_nil_iff (v := v.under strict) hm).1 h
    -- the contract and the nearest declarations do not depend on the policy
    refine (methodProblems_eq_nil_iff (v := v.under lax) hm).2 ⟨c, hc, ?_, hconforms⟩
    exact Bool.eq_false_iff.2 fun hlax => Bool.eq_false_iff.1 hmisses (missesType_of_le hle hlax)
  · exact if_neg hm

/-- A method whose contract names a type, or that has no contract, has the same problems under all
policies. -/
theorem methodProblems_under_eq
    (hspecified : ∀ c, v.contractOf m = .ok c → c.typeSource ≠ .unspecified) :
    (v.under a).methodProblems m = v.methodProblems m := by
  unfold methodProblems participantProblems
  rw [participates_under, contractOf_under]
  cases hc : v.contractOf m with
  | error found => rfl
  | ok c =>
    -- no policy refuses a contract with a type
    have hmisses (w : Validator) (ancestors : List MethodRef) :
        w.missesType c ancestors = false := by
      simp [missesType, hspecified c hc]
    simp only [hmisses]
    rfl

/-! ### Outcomes under a stricter policy -/

variable {u : SourceUnit} {i : Nat}

theorem isClean_outcomeOf_of_le (hle : lax ≤ strict)
    (h : ((v.under strict).outcomeOf u i).isClean = true) :
    ((v.under lax).outcomeOf u i).isClean = true :=
  isClean_outcomeOf_iff.2 fun m hm =>
    methodProblems_eq_nil_of_le hle (isClean_outcomeOf_iff.1 h m hm)

/-- A program that is clean under a policy is clean under a laxer one. -/
theorem isClean_report_of_le (hle : lax ≤ strict) (h : (v.under strict).report.isClean = true) :
    (v.under lax).report.isClean = true :=
  isClean_report_iff.2 fun m hm => methodProblems_eq_nil_of_le hle (isClean_report_iff.1 h m hm)

/-- What a unit's diagnostics tell of contradictions is the same under all policies. -/
theorem filter_diagnostics_under (v : Validator) (u : SourceUnit) (i : Nat) :
    ((v.under a).outcomeOf u i).diagnostics.filter Diagnostic.tellsContradiction =
      ((v.under b).outcomeOf u i).diagnostics.filter Diagnostic.tellsContradiction := by
  simp only [outcomeOf, diagnostics_closeUnit, filter_sortDiagnostics_comm, List.filter_flatMap,
    filter_methodDiagnostics]
  -- the contradictions of a method do not ask for the policy
  rfl

/-- The number of methods checked in a clean unit is the same under all policies. -/
theorem methodsChecked_under {r s : UnitReport} (hr : (v.under a).outcomeOf u i = .clean r)
    (hs : (v.under b).outcomeOf u i = .clean s) : r.methodsChecked = s.methodsChecked := by
  obtain ⟨-, rfl⟩ := (closeUnit_eq_clean_iff _ _ _).1 hr
  obtain ⟨-, rfl⟩ := (closeUnit_eq_clean_iff _ _ _).1 hs
  rfl

/-- A unit in which no participating method lacks a type has the same outcome under all policies. -/
theorem outcomeOf_under_eq
    (hspecified : ∀ m ∈ u.methods i, v.participates m = true →
      ∀ c, v.contractOf m = .ok c → c.typeSource ≠ .unspecified) :
    (v.under a).outcomeOf u i = v.outcomeOf u i := by
  refine outcomeOf_congr rfl (List.forall₂_same.2 fun m hm => ⟨rfl, rfl, ?_⟩)
  by_cases hpart : v.participates m = true
  · exact methodProblems_under_eq (hspecified m hm hpart)
  · rw [methodProblems, methodProblems, if_neg hpart, participates_under, if_neg hpart]

end Validator

/-- **A stricter policy fails every unit that a laxer one fails.** In every accepted program,
whatever the names of the annotations are, each unit has an outcome under each of the three
policies, and

* a unit that fails under `allow` fails under `denyOnOverride`, and one that fails under
  `denyOnOverride` fails under `deny`;
* what its diagnostics tell of contradictions, and the number of methods that were checked in it if
  it is clean, are the same under all of them;
* all its outcomes are equal if none of its participating methods has a contract without a type.

The contracts of the program are the same under all policies, and if it is clean under `deny` it is
clean under each. -/
theorem policies_ordered_by_strictness {p : Program} {settings : Settings} {v : Validator}
    (hv : Validator.ofProgram? p settings = .ok v) :
    (∀ policy, Validator.ofProgram? p { settings with unspecified := policy } =
      .ok (v.under policy)) ∧
    (∀ i u, p.units[i]? = some u → ∃ outcome : UnspecifiedPolicy → UnitOutcome,
      (∀ policy, (v.under policy).unitOutcome? i = some (outcome policy)) ∧
      ((outcome .allow).isClean = false → (outcome .denyOnOverride).isClean = false) ∧
      ((outcome .denyOnOverride).isClean = false → (outcome .deny).isClean = false) ∧
      (∀ a b, (outcome a).diagnostics.filter Diagnostic.tellsContradiction =
        (outcome b).diagnostics.filter Diagnostic.tellsContradiction) ∧
      (∀ a b r s, outcome a = .clean r → outcome b = .clean s →
        r.methodsChecked = s.methodsChecked) ∧
      ((∀ m ∈ u.methods i, v.participates m = true →
          ∀ c, v.contractOf m = .ok c → c.typeSource ≠ .unspecified) →
        ∀ a b, outcome a = outcome b)) ∧
    (∀ a b, contractsOf p { settings with unspecified := a } =
      contractsOf p { settings with unspecified := b }) ∧
    ((v.under .deny).report.isClean = true → ∀ policy, (v.under policy).report.isClean = true) := by
  have hunder := Validator.ofProgram?_under hv
  refine ⟨hunder, fun i u hu => ?_, fun a b => ?_, fun hclean policy =>
    Validator.isClean_report_of_le policy.le_deny hclean⟩
  · -- a unit is clean under a laxer policy if it is clean under a stricter one, so failing goes up
    have hfails {lax strict : UnspecifiedPolicy} (hle : lax ≤ strict)
        (hlax : ((v.under lax).outcomeOf u i).isClean = false) :
        ((v.under strict).outcomeOf u i).isClean = false := by
      refine Bool.eq_false_iff.2 fun hstrict => Bool.eq_false_iff.1 hlax ?_
      exact Validator.isClean_outcomeOf_of_le hle hstrict
    have hunit (policy : UnspecifiedPolicy) : (v.under policy).program.units[i]? = some u := by
      rw [Validator.program_of_ofProgram? (hunder policy), hu]
    refine ⟨fun policy => (v.under policy).outcomeOf u i, fun policy => ?_,
      hfails (UnspecifiedPolicy.allow_le _), hfails (UnspecifiedPolicy.le_deny _),
      fun a b => v.filter_diagnostics_under u i, fun a b r s => Validator.methodsChecked_under,
      fun hspecified a b => ?_⟩
    · rw [Validator.unitOutcome?, hunit, Option.map_some]
    · exact (Validator.outcomeOf_under_eq hspecified).trans
        (Validator.outcomeOf_under_eq hspecified).symm
  · rw [contractsOf, contractsOf, validatorFor, validatorFor, hunder, hunder]
    rfl

/-! ### A conflict that gives way to a missing type -/

namespace Replaced

/-- A rebind annotation that names a class. -/
def naming (className : String) : Annotation :=
  { name := "com.google.gwt.core.shared.Rebind"
    values := .ofList [("type", .classLiteral className)] }

/-- An interface whose method names a type. -/
def api : TypeDecl :=
  { name := "test.Api", kind := .interfaceKind
    methods := [⟨{ name := "foo", annotations := [naming "java.lang.String"] }, .atLine 4⟩] }

/-- A class whose method overrides it and names none. -/
def impl : TypeDecl :=
  { name := "test.Impl", kind := .classKind, interfaces := ["test.Api"]
    methods := [⟨
      { name := "foo", annotations := [{ name := "com.google.gwt.core.shared.Rebind" }] },
      .atLine 6⟩] }

/-- Both types, each in a unit of its own. -/
def program : Program :=
  ⟨[{ types := [⟨api, .atLine 3⟩] }, { types := [⟨impl, .atLine 5⟩] }]⟩

/-- The messages of the class's diagnostics under a policy. -/
def messages (policy : UnspecifiedPolicy) : Except String (Option (List String)) :=
  (Validator.ofProgram? program { unspecified := policy }).map fun v =>
    (v.unitOutcome? 1).map fun o => o.diagnostics.map (·.message)

/-- The unit of the class fails for its conflict if no type is asked for, and for want of a type if
one is. -/
theorem impl_fails_throughout : ∃ v, Validator.ofProgram? program {} = .ok v ∧
    ∃ outcome : UnspecifiedPolicy → UnitOutcome,
      (∀ policy, (v.under policy).unitOutcome? 1 = some (outcome policy)) ∧
      (outcome .allow).diagnostics.map (·.message) = [Problem.overrideMustConform.message] ∧
      (outcome .denyOnOverride).diagnostics.map (·.message) = [Problem.missingType.message] ∧
      (outcome .allow).isClean = false ∧ (outcome .denyOnOverride).isClean = false ∧
      (outcome .deny).isClean = false := by
  obtain ⟨index, h⟩ := TypeIndex.exists_ofProgram?_iff.2 (show program.DistinctTypes by decide)
  have hv : Validator.ofProgram? program {} = .ok _ :=
    Validator.ofProgram?_eq_ok_iff.2 ⟨index, h, rfl⟩
  obtain ⟨hunder, hunits, -, -⟩ := policies_ordered_by_strictness hv
  obtain ⟨outcome, houtcome, hdenyOnOverride, hdeny, -⟩ := hunits 1 _ rfl
  have hmessages {policy : UnspecifiedPolicy} {texts : List String}
      (htexts : messages policy = .ok (some texts)) :
      (outcome policy).diagnostics.map (·.message) = texts := by
    have hv' : Validator.ofProgram? program { unspecified := policy } = .ok _ := hunder policy
    rw [messages, hv'] at htexts
    simpa [Except.map, houtcome] using htexts
  have hallow : (outcome .allow).diagnostics.map (·.message) =
      [Problem.overrideMustConform.message] := hmessages (by cbv)
  have hfailed : (outcome .allow).isClean = false := by
    cases ho : outcome .allow with
    | clean report =>
      rw [ho] at hallow
      cases hallow
    | failed failure => rfl
  exact ⟨_, hv, outcome, houtcome, hallow, hmessages (by cbv), hfailed, hdenyOnOverride hfailed,
    hdeny (hdenyOnOverride hfailed)⟩

end Replaced

end OverrideCheck
