import OverrideCheck.Proofs.Report.Sorted

/-!
# Closed units

The outcome of a unit is made in one place, where the unit is closed, and everything that is later
said about the unit is read off that outcome: whether it is clean, its verdict, its diagnostics.
That these agree rests on one fact about `closeUnit`, namely that a unit fails only if something was
found in it (`UnitOutcome.Founded`). An outcome made in any other way could be a failure without a
diagnostic.

* `UnitOutcome.diagnostics` — the diagnostics of an outcome, of which a clean one has none;
* `UnitOutcome.Founded` — a failure has a diagnostic;
* `closeUnit_founded`, `path_closeUnit`, `diagnostics_closeUnit`, `closeUnit_eq_clean_iff` — what
  closing a unit leaves of what was found in it.
-/

namespace OverrideCheck

namespace UnitOutcome

/-- The diagnostics of an outcome. -/
def diagnostics : UnitOutcome → List Diagnostic
  | .clean _ => []
  | .failed failure => failure.diagnostics

/-- An outcome that is a failure says what is wrong. -/
def Founded (o : UnitOutcome) : Prop := ∀ failure, o = .failed failure → failure.diagnostics ≠ []

theorem isClean_clean (report : UnitReport) : (clean report).isClean = true := rfl

theorem isClean_failed (failure : UnitFailure) : (failed failure).isClean = false := rfl

theorem verdict_eq_clean_iff {o : UnitOutcome} : o.verdict = .clean ↔ o.isClean = true := by
  cases o with
  | clean report => simp [verdict, isClean_clean]
  | failed failure => simp [verdict, isClean_failed]

theorem failure?_eq_none_iff {o : UnitOutcome} : o.failure? = none ↔ o.isClean = true := by
  rw [isClean, Option.isNone_iff_eq_none]

/-- A unit whose failures are founded is clean exactly when it has no diagnostics. -/
theorem Founded.diagnostics_eq_nil_iff {o : UnitOutcome} (h : o.Founded) :
    o.diagnostics = [] ↔ o.isClean = true := by
  cases o with
  | clean report => simp [diagnostics, isClean_clean]
  | failed failure =>
    have hne : failure.diagnostics ≠ [] := h failure rfl
    simp [diagnostics, isClean_failed, hne]

end UnitOutcome

section Close

variable (path : String) (found : List Diagnostic) (methodsChecked : Nat)

theorem sortDiagnostics_eq_nil_iff : sortDiagnostics found = [] ↔ found = [] := by
  -- sorting keeps the number of diagnostics
  rw [← List.length_eq_zero_iff, (sortDiagnostics_perm found).length_eq, List.length_eq_zero_iff]

/-- A unit that is closed as failed has something found in it. -/
theorem closeUnit_founded : (closeUnit path found methodsChecked).Founded := by
  intro failure hfailure
  cases found with
  | nil => cases hfailure
  | cons d rest =>
    rw [closeUnit, UnitOutcome.failed.injEq] at hfailure
    rw [← hfailure]
    -- what is sorted is what was found, of which there is at least `d`
    exact fun hnil => List.cons_ne_nil d rest ((sortDiagnostics_eq_nil_iff _).1 hnil)

theorem path_closeUnit : (closeUnit path found methodsChecked).path = path := by
  cases found with
  | nil => rfl
  | cons d rest => rfl

/-- The diagnostics of a closed unit are what was found in it, sorted. -/
theorem diagnostics_closeUnit :
    (closeUnit path found methodsChecked).diagnostics = sortDiagnostics found := by
  cases found with
  | nil => rfl
  | cons d rest => rfl

/-- A unit is closed as clean exactly when nothing was found in it, with the number of methods that
were checked. -/
theorem closeUnit_eq_clean_iff {report : UnitReport} :
    closeUnit path found methodsChecked = .clean report ↔
      found = [] ∧ report = ⟨path, methodsChecked⟩ := by
  cases found with
  | nil => simp [closeUnit, eq_comm]
  | cons d rest => simp [closeUnit]

end Close

end OverrideCheck
