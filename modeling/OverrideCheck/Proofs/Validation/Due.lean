import OverrideCheck.Proofs.Report.Sorted
import OverrideCheck.Proofs.Validation.Outcome

/-!
# What is due

The diagnostics due to a unit, said method by method and branch by branch without the order in
which the check goes about it: `Validator.dueProblems` for one method, `Validator.due` for a unit.

* A method outside the protocol is due nothing.
* A method whose annotations contradict each other is due its contradictions and nothing else.
* A method whose type is asked for and missing (`Validator.TypeDue`) is due that one problem.
* Any other method is due one problem for each branch on which the first participating declaration
  has a contract that the method's contradicts (`Validator.conflictingBranches`).

`unitOutcome_exact` says that a unit's outcome is what is due, stably sorted by position, or the
number of participating methods when nothing is due. It holds for every way of finding overridden
declarations and every way of reading annotations, also one with its own answer to who takes part.
That the check compares with nearest declarations rather than with branches makes no difference,
because no branch has two of them (`length_filter_nearestParticipating`).
-/

namespace OverrideCheck

namespace Validator

variable (v : Validator)

/-- The policy asks for a type, and the contract of the method leaves it open. -/
def TypeDue (m : MethodRef) (contract : RebindContract) : Prop :=
  contract.typeSource = .unspecified ∧
    (v.policy = .deny ∨
      v.policy = .denyOnOverride ∧ ∃ a ∈ v.lookup m, v.participates a.decl = true)

instance (m : MethodRef) (contract : RebindContract) : Decidable (v.TypeDue m contract) :=
  inferInstanceAs (Decidable (_ ∧ _))

/-- The branches whose first participating declaration has a contract that the given one is not
compatible with. A first declaration without a contract settles its branch all the same. -/
def conflictingBranches (m : MethodRef) (contract : RebindContract) : List Nat :=
  ((v.lookup m).map (·.branch)).dedup.filter fun branch =>
    (firstOn? v.reader (v.lookup m) branch).any fun a =>
      match v.contractOf a with
      | .ok overridden => !decide (contract.Compatible overridden)
      | .error _ => false

/-- The problems due to a method. -/
def dueProblems (m : MethodRef) : List Problem :=
  if v.participates m then
    match v.contractOf m with
    | .error found => found.map Contradiction.problem
    | .ok contract =>
      if v.TypeDue m contract then [.missingType]
      else List.replicate (v.conflictingBranches m contract).length .overrideMustConform
  else []

/-- The diagnostics due to a unit at the given index, in type and declaration order, those of a
method all at the method's own position. -/
def due (unit : SourceUnit) (index : Nat) : List Diagnostic :=
  (unit.methods index).flatMap fun m => (v.dueProblems m).map fun problem =>
    ⟨.error, unit.path, m.method.position, problem.message⟩

/-! ### Each method is given what it is due -/

variable {v}

/-- The policy is broken exactly when a type is due. -/
theorem missesType_eq_true_iff {m : MethodRef} {contract : RebindContract} :
    v.missesType contract (v.nearest m) = true ↔ v.TypeDue m contract := by
  -- "overrides something" is asked of the nearest declarations; some are left whenever a
  -- participating declaration was found at all
  have hoverrides : (v.nearest m).isEmpty = false ↔
      ∃ a ∈ v.lookup m, v.participates a.decl = true := by
    rw [nearest, List.isEmpty_eq_false_iff, Ne, nearestParticipating_eq_nil_iff]
    simp [participates]
  unfold missesType TypeDue
  rw [← hoverrides, Bool.and_eq_true, decide_eq_true_iff]
  refine and_congr_right fun _ => ?_
  -- each policy is its own verdict on methods that override something and on those that do not
  cases v.policy <;> simp [UnspecifiedPolicy.rejects]

/-- As many nearest declarations are in conflict with a contract as there are branches. -/
theorem length_filter_conflicts (v : Validator) (m : MethodRef) (contract : RebindContract) :
    ((v.nearest m).filter (v.conflicts contract)).length =
      (v.conflictingBranches m contract).length :=
  length_filter_nearestParticipating (v.conflicts contract)

/-- The problems of a method are those due to it. -/
theorem methodProblems_eq_due (v : Validator) (m : MethodRef) :
    v.methodProblems m = v.dueProblems m := by
  unfold methodProblems dueProblems participantProblems
  refine if_congr Iff.rfl ?_ rfl
  cases v.contractOf m with
  | error found => rfl
  | ok contract =>
    -- a missing type suppresses every comparison, on both sides
    simp only
    by_cases hdue : v.TypeDue m contract
    · rw [if_pos hdue, if_pos (missesType_eq_true_iff.2 hdue)]
    · rw [if_neg hdue, if_neg fun hmisses => hdue (missesType_eq_true_iff.1 hmisses),
        List.map_const', length_filter_conflicts]

end Validator

/-- **A unit's outcome is what is due to it.** Every unit of the program has an outcome: clean, with
the number of its participating methods, if nothing is due to it; failed otherwise, with exactly
the diagnostics that are due, once each and stably sorted by line and column. -/
theorem unitOutcome_exact (v : Validator) (i : Fin v.program.units.length) :
    let unit := v.program.units[i]
    ∃ sorted, StableSort (v.due unit i) sorted ∧
      v.unitOutcome? i = some
        (if v.due unit i = [] then .clean ⟨unit.path, (unit.methods i).countP v.participates⟩
        else .failed ⟨unit.path, sorted⟩) := by
  intro unit
  have hunit : v.program.units[(i : Nat)]? = some unit := List.getElem?_eq_getElem i.isLt
  -- before it is sorted, what the check finds is the list of what is due, in the same order
  have hfound : (unit.methods i).flatMap (v.methodDiagnostics unit.path) = v.due unit i := by
    refine List.flatMap_congr fun m _ => ?_
    rw [Validator.methodDiagnostics, Validator.methodProblems_eq_due]
  refine ⟨sortDiagnostics (v.due unit i), sortDiagnostics_stableSort _, ?_⟩
  rw [Validator.unitOutcome?, hunit, Option.map_some, Validator.outcomeOf,
    List.countP_eq_length_filter]
  simp only [hfound]
  cases v.due unit i with
  | nil => rfl
  | cons d rest => rfl

end OverrideCheck
