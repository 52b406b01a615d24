import Mathlib.Data.List.TFAE
import Mathlib.Tactic.TFAE
import OverrideCheck.Proofs.Report.Closed
import OverrideCheck.Proofs.Validation.Answers
import OverrideCheck.Report.PlainText

/-!
# One verdict

A report is read in several ways: as a yes or no, as the list of its failures, as that of its
diagnostics, as the verdicts on the units, and as a text. Each of these is made from the outcomes on
its own, and they tell the same because of two facts about the outcomes of a check: there is one for
each unit, so that none is lost when they are shown beside the units, and a failure among them has a
diagnostic (`ProgramReport.Founded`).

* `ProgramReport.OneVerdict` — what it is for the views of a report to agree;
* `ProgramReport.length_failures`, `ProgramReport.failures_eq_nil_iff`,
  `ProgramReport.Founded.diagnostics_eq_nil_iff`, `ProgramReport.forall_verdicts_iff`,
  `Program.renderReport_eq_empty_iff` — each view, and when it tells of a clean program;
* `oneVerdict_of_checkProgram` — the views of the report of a check agree.
-/

namespace OverrideCheck

theorem join_eq_empty_iff {texts : List String} :
    String.join texts = "" ↔ ∀ text ∈ texts, text = "" := by
  induction texts with
  | nil => simp
  | cons text rest ih =>
    rw [String.join_cons, String.append_eq_empty_iff, ih, List.forall_mem_cons]

/-! ### The views of an outcome -/

/-- The text of a failure is never empty: it starts with a headline. -/
theorem UnitFailure.render_ne_empty (f : UnitFailure) (source? : Option String) (colour : Bool) :
    f.render source? colour ≠ "" := by
  -- with or without a source the text starts with the title
  have htitle : f.title ≠ "" := fun hempty => by
    rw [title, String.append_eq_empty_iff, String.append_eq_empty_iff] at hempty
    exact absurd hempty.1.1 (by decide)
  cases source? with
  | none =>
    rw [render, plainText, Ne, String.append_eq_empty_iff, String.append_eq_empty_iff]
    exact fun hempty => htitle hempty.1.1
  | some source =>
    rw [render, Ne, String.append_eq_empty_iff, String.append_eq_empty_iff]
    exact fun hempty => htitle hempty.1.1

/-- An outcome has no text exactly when the unit is clean. -/
theorem UnitOutcome.render_eq_empty_iff {o : UnitOutcome} (source? : Option String)
    (colour : Bool) : o.render source? colour = "" ↔ o.isClean = true := by
  cases o with
  | clean report => simp [render, isClean_clean]
  | failed failure => simp [render, isClean_failed, failure.render_ne_empty source? colour]

/-! ### The views of a report -/

namespace ProgramReport

variable {r : ProgramReport}

/-- Every failure among the outcomes says what is wrong. -/
def Founded (r : ProgramReport) : Prop := ∀ o ∈ r.outcomes, o.Founded

theorem failures_eq_nil_iff : r.failures = [] ↔ r.isClean = true := by
  rw [failures, List.filterMap_eq_nil_iff, isClean, List.all_eq_true]
  exact forall₂_congr fun o _ => UnitOutcome.failure?_eq_none_iff

/-- The failures of a report are as many as the outcomes that are not clean. -/
theorem length_failures (r : ProgramReport) :
    r.failures.length = r.outcomes.countP fun o => !o.isClean := by
  rw [failures, List.length_filterMap_eq_countP]
  refine List.countP_congr fun o _ => ?_
  cases o with
  | clean report => simp [UnitOutcome.failure?, UnitOutcome.isClean_clean]
  | failed failure => simp [UnitOutcome.failure?, UnitOutcome.isClean_failed]

/-- The diagnostics of a report are those of its outcomes, one after the other. -/
theorem diagnostics_eq_flatMap (r : ProgramReport) :
    r.diagnostics = r.outcomes.flatMap (·.diagnostics) := by
  rw [diagnostics, failures]
  induction r.outcomes with
  | nil => rfl
  | cons o rest ih =>
    cases o with
    | clean report => exact ih
    | failed failure => exact congrArg (failure.diagnostics ++ ·) ih

/-- A report whose failures are founded is clean exactly when it has no diagnostics. -/
theorem Founded.diagnostics_eq_nil_iff (h : r.Founded) :
    r.diagnostics = [] ↔ r.isClean = true := by
  rw [diagnostics_eq_flatMap, List.flatMap_eq_nil_iff, isClean, List.all_eq_true]
  -- no diagnostics in all means none in any outcome, and of a founded one that says it is clean
  exact forall₂_congr fun o ho => (h o ho).diagnostics_eq_nil_iff

theorem forall_verdicts_iff : (∀ x ∈ r.verdicts, x.2 = .clean) ↔ r.isClean = true := by
  rw [verdicts, List.forall_mem_map, isClean, List.all_eq_true]
  exact forall₂_congr fun o _ => UnitOutcome.verdict_eq_clean_iff

end ProgramReport

/-- Beside as many units as it has outcomes, a report has no text exactly when it is clean. -/
theorem Program.renderReport_eq_empty_iff {p : Program} {r : ProgramReport}
    (hlength : r.outcomes.length = p.units.length) (colour : Bool) :
    p.renderReport r colour = "" ↔ r.isClean = true := by
  -- no outcome is lost beside the units
  have houtcomes : (p.units.zip r.outcomes).map Prod.snd = r.outcomes :=
    List.map_snd_zip (Nat.le_of_eq hlength)
  calc p.renderReport r colour = ""
      ↔ ∀ x ∈ p.units.zip r.outcomes, x.2.render x.1.source? colour = "" := by
        rw [renderReport, join_eq_empty_iff, List.forall_mem_map]
    _ ↔ ∀ x ∈ p.units.zip r.outcomes, x.2.isClean = true :=
        forall₂_congr fun x _ => UnitOutcome.render_eq_empty_iff x.1.source? colour
    _ ↔ ∀ o ∈ (p.units.zip r.outcomes).map Prod.snd, o.isClean = true :=
        (List.forall_mem_map (P := fun o : UnitOutcome => o.isClean = true)).symm
    _ ↔ r.isClean = true := by rw [houtcomes, ProgramReport.isClean, List.all_eq_true]

/-! ### The report of a check -/

/-- The views of a report on a program tell one verdict. -/
structure ProgramReport.OneVerdict (p : Program) (r : ProgramReport) : Prop where
  /-- There is one outcome for each unit. -/
  length_outcomes : r.outcomes.length = p.units.length
  /-- A failure bears the path of its unit, and says what is wrong. -/
  failure : ∀ (i : Nat) (unit : SourceUnit) (failure : UnitFailure), p.units[i]? = some unit →
    r.outcomes[i]? = some (.failed failure) → failure.path = unit.path ∧ failure.diagnostics ≠ []
  /-- Each view tells of a clean program exactly when the others do. -/
  views : ∀ colour, List.TFAE
    [r.isClean = true, r.failures = [], r.diagnostics = [], ∀ x ∈ r.verdicts, x.2 = .clean,
      p.renderReport r colour = ""]

namespace Validator

variable {v : Validator}

theorem path_outcomeOf (u : SourceUnit) (i : Nat) : (v.outcomeOf u i).path = u.path :=
  path_closeUnit _ _ _

theorem outcomeOf_founded (u : SourceUnit) (i : Nat) : (v.outcomeOf u i).Founded :=
  closeUnit_founded _ _ _

theorem length_outcomes_report (v : Validator) :
    v.report.outcomes.length = v.program.units.length := by
  rw [report, List.length_map, List.length_zipIdx]

theorem report_founded (v : Validator) : v.report.Founded := by
  intro o ho
  obtain ⟨⟨u, i⟩, -, rfl⟩ := List.mem_map.1 ho
  exact outcomeOf_founded u i

/-- The views of a report tell one verdict. -/
theorem oneVerdict_report (v : Validator) : v.report.OneVerdict v.program where
  length_outcomes := v.length_outcomes_report
  failure i unit failure hunit hfailed := by
    rw [getElem?_outcomes_report, unitOutcome?, hunit, Option.map_some, Option.some.injEq]
      at hfailed
    have hpath := v.path_outcomeOf unit i
    rw [hfailed] at hpath
    exact ⟨hpath, v.outcomeOf_founded unit i failure hfailed⟩
  views colour := by
    -- each view is compared with the first, on which no other one depends
    have hfounded := v.report_founded
    tfae_have 1 ↔ 2 := ProgramReport.failures_eq_nil_iff.symm
    tfae_have 1 ↔ 3 := hfounded.diagnostics_eq_nil_iff.symm
    tfae_have 1 ↔ 4 := ProgramReport.forall_verdicts_iff.symm
    tfae_have 1 ↔ 5 := (Program.renderReport_eq_empty_iff v.length_outcomes_report colour).symm
    tfae_finish

end Validator

/-- The views of the report of a check tell one verdict. -/
theorem oneVerdict_of_checkProgram {p : Program} {settings : Settings} {r : ProgramReport}
    (h : checkProgram p settings = .ok r) : r.OneVerdict p := by
  obtain ⟨v, hv, rfl⟩ := map_validatorFor_eq_ok_iff.1 h
  obtain rfl := Validator.program_of_ofProgram? hv
  exact v.oneVerdict_report

end OverrideCheck
