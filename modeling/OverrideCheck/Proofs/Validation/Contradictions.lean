import OverrideCheck.Proofs.Report.Closed
import OverrideCheck.Proofs.Validation.Outcome

/-!
# What the check says of contradictions

Some diagnostics tell of a contradiction among the annotations of one method, others of a missing
type or of a method that does not conform. The former are a matter of the method alone: whatever the
policy is and whatever the method overrides, the check tells of a contradiction exactly when the
method has no contract.

* `Diagnostic.tellsContradiction` — a diagnostic with the message of a contradiction;
* `Validator.contradictionProblems` — the contradictions of a method, as problems;
* `Validator.filter_methodDiagnostics` — these are what the check tells of contradictions;
* `Validator.tellsContradiction_methodDiagnostics_iff` — a participating method has a contract
  exactly when the check tells of none.
-/

namespace OverrideCheck

/-- The problem is a contradiction among the annotations of one method. -/
def Problem.tellsContradiction : Problem → Bool
  | .tooManyTypeParams => true
  | .typeParamAlreadyDefined => true
  | .missingType => false
  | .overrideMustConform => false

/-- The message of a diagnostic is that of a contradiction among the annotations of one method. -/
def Diagnostic.tellsContradiction (d : Diagnostic) : Bool :=
  d.message == Problem.tooManyTypeParams.message ||
    d.message == Problem.typeParamAlreadyDefined.message

/-- No other problem has the message of a contradiction. -/
theorem Problem.tellsContradiction_message (problem : Problem) (unit : String)
    (position : Position) :
    Diagnostic.tellsContradiction { unit, position, message := problem.message } =
      problem.tellsContradiction := by
  cases problem <;> simp [Diagnostic.tellsContradiction, message, tellsContradiction]

theorem Contradiction.tellsContradiction_problem (found : Contradiction) :
    found.problem.tellsContradiction = true := by
  cases found <;> rfl

namespace Validator

variable {v : Validator} {m : MethodRef}

/-- The contradictions among the annotations of a method, as problems. -/
def contradictionProblems (v : Validator) (m : MethodRef) : List Problem :=
  match v.contractOf m with
  | .error found => found.map Contradiction.problem
  | .ok _ => []

theorem contradictionProblems_eq_nil_iff :
    v.contradictionProblems m = [] ↔ ∃ c, v.contractOf m = .ok c := by
  rw [contradictionProblems]
  cases hc : v.contractOf m with
  | error found =>
    have hne : found ≠ [] := RebindContract.ne_nil_of_ofMethod?_eq_error hc
    simp [hne]
  | ok c => simp

/-- Of the problems of a participating method, its contradictions tell of contradictions. -/
theorem filter_methodProblems (hm : v.participates m = true) :
    (v.methodProblems m).filter Problem.tellsContradiction = v.contradictionProblems m := by
  rw [methodProblems, if_pos hm, participantProblems, contradictionProblems]
  cases v.contractOf m with
  | error found =>
    -- all that is said of a method without a contract is why it has none
    refine List.filter_eq_self.2 fun problem hproblem => ?_
    obtain ⟨contradiction, -, rfl⟩ := List.mem_map.1 hproblem
    exact contradiction.tellsContradiction_problem
  | ok c =>
    -- what is left to say of a method with a contract is no contradiction
    refine List.filter_eq_nil_iff.2 fun problem hproblem => ?_
    simp only at hproblem
    split at hproblem
    · rw [List.mem_singleton.1 hproblem]
      exact Bool.false_ne_true
    · obtain ⟨a, -, rfl⟩ := List.mem_map.1 hproblem
      exact Bool.false_ne_true

/-- Of the diagnostics of a method, those of its contradictions tell of contradictions. -/
theorem filter_methodDiagnostics (v : Validator) (path : String) (m : MethodRef) :
    (v.methodDiagnostics path m).filter Diagnostic.tellsContradiction =
      if v.participates m then
        (v.contradictionProblems m).map fun problem =>
          { unit := path, position := m.method.position, message := problem.message }
      else [] := by
  rw [methodDiagnostics, List.filter_map]
  simp only [Function.comp_def, Problem.tellsContradiction_message]
  -- of a method outside the protocol nothing is said at all
  by_cases hm : v.participates m = true
  · rw [if_pos hm, filter_methodProblems hm]
  · rw [if_neg hm, methodProblems, if_neg hm]
    rfl

/-- The check tells of no contradiction of a participating method exactly when the method has a
contract. -/
theorem tellsContradiction_methodDiagnostics_iff (path : String) (hm : v.participates m = true) :
    (v.methodDiagnostics path m).any Diagnostic.tellsContradiction = false ↔
      ∃ c, v.contractOf m = .ok c := by
  have hfilter := v.filter_methodDiagnostics path m
  rw [if_pos hm] at hfilter
  calc (v.methodDiagnostics path m).any Diagnostic.tellsContradiction = false
      ↔ (v.methodDiagnostics path m).filter Diagnostic.tellsContradiction = [] := by
        rw [List.any_eq_false, List.filter_eq_nil_iff]
    _ ↔ v.contradictionProblems m = [] := by rw [hfilter, List.map_eq_nil_iff]
    _ ↔ ∃ c, v.contractOf m = .ok c := contradictionProblems_eq_nil_iff

end Validator

end OverrideCheck
