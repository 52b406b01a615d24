import Mathlib
import OverrideCheck.Proofs.Report.Verdict

/-!
# A report as an account

Without sources, a report is a text of lines: for each failed unit a headline with its path, and a
line for each finding. A path may hold anything but a line feed, quotes and words of the report
included, but a headline is told from a finding by how it begins, and what a path holds lies between
fixed ends. So the text says which units failed, and for what on which lines.

* `FailureAccount` — what is told of a failed unit, with `FailureAccount.lines` as its lines;
* `readReport` — the accounts that a text gives;
* `readReport_text` — accounts are read back from the text of their lines;
* `renderReport_eq_linesText` — the text of a report without sources is that of its accounts;
* `Faithful`, `faithful_of_checkProgram` — what the text of the report of a check tells;
* `report_tells_failures` — reports of one text give the same accounts.
-/

namespace OverrideCheck

/-- What is told of a failed unit: its path, and the line and the message of each finding. -/
structure FailureAccount where
  path : String
  findings : List (UInt32 × String)
deriving DecidableEq, Repr

/-- The line that heads the account of a unit. -/
def headline (path : String) : String := "Errors in '" ++ path ++ "'"

/-- The line for a finding. -/
def findingLine (finding : UInt32 × String) : String :=
  "  Line " ++ Nat.repr finding.1.toNat ++ ": " ++ finding.2

/-- The lines of an account: its headline, and one for each finding. -/
def FailureAccount.lines (a : FailureAccount) : List String :=
  headline a.path :: a.findings.map findingLine

/-- The text of some lines, each of which is ended. -/
def linesText (lines : List String) : String := String.join (lines.map (· ++ "\n"))

/-- What a failure tells. -/
def UnitFailure.account (f : UnitFailure) : FailureAccount where
  path := f.path
  findings := f.diagnostics.map fun d => (d.position.line, d.message)

/-- What a report tells, failure by failure. -/
def ProgramReport.accounts (r : ProgramReport) : List FailureAccount :=
  r.failures.map UnitFailure.account

/-! ### Reading a report -/

/-- The path in a headline. -/
def readHeadline? (line : List Char) : Option String :=
  ("Errors in '".toList.isPrefixOf? line).map fun rest => String.ofList rest.dropLast

/-- The finding of a line. -/
def readFinding? (line : List Char) : Option (UInt32 × String) :=
  ("  Line ".toList.isPrefixOf? line).map fun rest =>
    (.ofNat (Nat.ofDigitChars 10 (rest.takeWhile Char.isDigit) 0),
      .ofList ((rest.dropWhile Char.isDigit).drop 2))

/-- The findings before the first headline, and the accounts from there on. -/
def readLines : List (List Char) → List (UInt32 × String) × List FailureAccount
  | [] => ([], [])
  | line :: rest =>
    let (findings, accounts) := readLines rest
    match readHeadline? line with
    | some path => ([], ⟨path, findings⟩ :: accounts)
    | none =>
      match readFinding? line with
      | some finding => (finding :: findings, accounts)
      | none => (findings, accounts)

/-- The accounts that a text gives. -/
def readReport (text : String) : List FailureAccount := (readLines (text.toList.splitOn '\n')).2

theorem isPrefixOf?_append (front rest : List Char) :
    front.isPrefixOf? (front ++ rest) = some rest :=
  List.isPrefixOf?_eq_some_iff_append_eq.2 rfl

/-- A path is read from its headline, whatever it holds. -/
theorem readHeadline?_headline (path : String) :
    readHeadline? (headline path).toList = some path := by
  rw [readHeadline?, headline, String.toList_append, String.toList_append, List.append_assoc,
    isPrefixOf?_append, Option.map_some, show "'".toList = ['\''] from rfl, List.dropLast_concat,
    String.ofList_toList]

/-- The line of a finding is no headline. -/
theorem readHeadline?_findingLine (finding : UInt32 × String) :
    readHeadline? (findingLine finding).toList = none := by
  rw [readHeadline?, findingLine, String.toList_append, String.toList_append, String.toList_append,
    List.append_assoc, List.append_assoc]
  rfl

/-- A finding is read from its line. -/
theorem readFinding?_findingLine (finding : UInt32 × String) :
    readFinding? (findingLine finding).toList = some finding := by
  obtain ⟨line, message⟩ := finding
  have hdigits : ∀ c ∈ Nat.toDigits 10 line.toNat, c.isDigit :=
    fun c hc => Nat.isDigit_of_mem_toDigits (by decide) (by decide) hc
  have htext : (findingLine (line, message)).toList =
      "  Line ".toList ++ (Nat.toDigits 10 line.toNat ++ ':' :: ' ' :: message.toList) := by
    simp [findingLine, Nat.toList_repr]
  rw [readFinding?, htext, isPrefixOf?_append, Option.map_some,
    List.takeWhile_append_of_pos hdigits, List.dropWhile_append_of_pos hdigits]
  -- a colon is no digit, so the number ends there
  have hcolon : Char.isDigit ':' = false := rfl
  simp [hcolon, Nat.ofDigitChars_ten_toDigits]

/-- Lines of findings come before what is read of the lines after them. -/
theorem readLines_findings (findings : List (UInt32 × String)) (rest : List (List Char)) :
    readLines ((findings.map findingLine).map String.toList ++ rest) =
      (findings ++ (readLines rest).1, (readLines rest).2) := by
  induction findings with
  | nil => rfl
  | cons finding findings ih =>
    rw [List.map_cons, List.map_cons, List.cons_append, readLines, ih,
      readHeadline?_findingLine, readFinding?_findingLine]
    rfl

/-- Accounts are read back from their lines. -/
theorem readLines_accounts (accounts : List FailureAccount) :
    readLines ((accounts.flatMap FailureAccount.lines).map String.toList ++ [[]]) =
      ([], accounts) := by
  induction accounts with
  | nil => rfl
  | cons a accounts ih =>
    -- no finding is left over before the later accounts, so this headline gets its own only
    rw [List.flatMap_cons, List.map_append, List.append_assoc, FailureAccount.lines, List.map_cons,
      List.cons_append, readLines, readLines_findings, ih, readHeadline?_headline]
    simp

/-- A text of lines is split into these, with nothing behind the last of them. -/
theorem splitOn_linesText {lines : List String} (h : ∀ line ∈ lines, '\n' ∉ line.toList) :
    (linesText lines).toList.splitOn '\n' = lines.map String.toList ++ [[]] := by
  induction lines with
  | nil => rfl
  | cons line lines ih =>
    obtain ⟨hline, hlines⟩ := List.forall_mem_cons.1 h
    have htext : (linesText (line :: lines)).toList =
        line.toList ++ '\n' :: (linesText lines).toList := by
      simp [linesText]
    -- the first feed of the text is the one that ends the first line
    rw [htext, List.splitOn_append_cons_self_of_not_mem hline, ih hlines]
    rfl

/-- Accounts are read back from the text of their lines, if no line feed comes in between. -/
theorem readReport_text {accounts : List FailureAccount}
    (h : ∀ line ∈ accounts.flatMap FailureAccount.lines, '\n' ∉ line.toList) :
    readReport (linesText (accounts.flatMap FailureAccount.lines)) = accounts := by
  rw [readReport, splitOn_linesText h, readLines_accounts]

/-! ### The text of a report -/

theorem linesText_append (lines others : List String) :
    linesText (lines ++ others) = linesText lines ++ linesText others := by
  rw [linesText, linesText, linesText, List.map_append, String.join_append]

/-- A failure as plain text is its lines. -/
theorem UnitFailure.plainText_eq (f : UnitFailure) : f.plainText = linesText f.account.lines := by
  have hfindings : (f.diagnostics.map fun d => "  " ++ d.line ++ "\n") =
      (f.account.findings.map findingLine).map (· ++ "\n") := by
    rw [account, List.map_map, List.map_map]
    refine List.map_congr_left fun d _ => ?_
    simp [Diagnostic.line, findingLine, ← String.append_assoc]
  rw [plainText, hfindings, FailureAccount.lines, linesText, List.map_cons, String.join_cons]
  rfl

/-- Outcomes without sources are shown by the lines of their failures; clean ones add nothing. -/
theorem join_render_eq (outcomes : List UnitOutcome) (colour : Bool) :
    String.join (outcomes.map (·.render none colour)) =
      linesText ((outcomes.filterMap UnitOutcome.failure?).flatMap (·.account.lines)) := by
  induction outcomes with
  | nil => rfl
  | cons o outcomes ih =>
    rw [List.map_cons, String.join_cons, ih]
    cases o with
    | clean report => exact String.empty_append
    | failed f =>
      show f.plainText ++ _ = linesText ((f :: outcomes.filterMap UnitOutcome.failure?).flatMap _)
      rw [List.flatMap_cons, linesText_append, f.plainText_eq]

/-- The text of a report on units without sources is that of its accounts. -/
theorem renderReport_eq_linesText {p : Program} {r : ProgramReport}
    (hlength : r.outcomes.length = p.units.length) (hsource : ∀ u ∈ p.units, u.source? = none)
    (colour : Bool) :
    p.renderReport r colour = linesText (r.accounts.flatMap FailureAccount.lines) := by
  -- no outcome is lost beside the units, and none is shown with a source
  have houtcomes : (p.units.zip r.outcomes).map Prod.snd = r.outcomes :=
    List.map_snd_zip (Nat.le_of_eq hlength)
  have htexts : ((p.units.zip r.outcomes).map fun x => x.2.render x.1.source? colour) =
      r.outcomes.map (·.render none colour) := by
    rw [← houtcomes, List.map_map, houtcomes]
    refine List.map_congr_left fun x hx => ?_
    rw [hsource x.1 (List.of_mem_zip hx).1]
    rfl
  calc p.renderReport r colour
      = String.join ((p.units.zip r.outcomes).map fun x => x.2.render x.1.source? colour) := rfl
    _ = linesText (r.failures.flatMap (·.account.lines)) := by rw [htexts, join_render_eq]; rfl
    _ = linesText (r.accounts.flatMap FailureAccount.lines) := by
      rw [ProgramReport.accounts, List.flatMap_map]

/-! ### The report of a check -/

namespace Validator

variable {v : Validator}

/-- The outcomes of a report bear the paths of the units. -/
theorem paths_outcomes_report (v : Validator) :
    v.report.outcomes.map (·.path) = v.program.paths := by
  rw [report, List.map_map, Program.paths]
  conv_rhs => rw [← List.zipIdx_map_fst 0 v.program.units, List.map_map]
  exact List.map_congr_left fun x _ => path_outcomeOf x.1 x.2

/-- A failure of a report is the outcome of a unit. -/
theorem exists_unit_of_mem_failures {f : UnitFailure} (hf : f ∈ v.report.failures) :
    ∃ u ∈ v.program.units, ∃ i, v.outcomeOf u i = .failed f := by
  obtain ⟨o, ho, hfailure⟩ := List.mem_filterMap.1 hf
  obtain ⟨⟨u, i⟩, hu, rfl⟩ := List.mem_map.1 ho
  refine ⟨u, List.mem_of_getElem? (List.mem_zipIdx_iff_getElem?.1 hu), i, ?_⟩
  dsimp only at hfailure
  cases houtcome : v.outcomeOf u i with
  | clean report =>
    rw [houtcome] at hfailure
    cases hfailure
  | failed found =>
    rw [houtcome] at hfailure
    exact congrArg _ (Option.some.inj hfailure)

/-- A unit is told of nothing but problems. -/
theorem exists_problem_of_mem_diagnostics {u : SourceUnit} {i : Nat} {d : Diagnostic}
    (hd : d ∈ (v.outcomeOf u i).diagnostics) :
    ∃ problem : Problem, d.message = problem.message := by
  -- sorting adds no diagnostic, so each is one of a method's problems
  rw [outcomeOf, diagnostics_closeUnit, (sortDiagnostics_perm _).mem_iff, List.mem_flatMap] at hd
  obtain ⟨m, -, hd⟩ := hd
  obtain ⟨problem, -, rfl⟩ := List.mem_map.1 hd
  exact ⟨problem, rfl⟩

/-- The findings of a unit are told in the order of their lines. -/
theorem diagnostics_outcomeOf_ordered (u : SourceUnit) (i : Nat) :
    (v.outcomeOf u i).diagnostics.Pairwise fun a b => a.position.line ≤ b.position.line := by
  rw [outcomeOf, diagnostics_closeUnit]
  refine (sortDiagnostics_ordered _).imp fun h => ?_
  -- positions are sorted by line before they are sorted by column
  rcases Position.le_iff.1 h with hlt | ⟨heq, -⟩
  · exact UInt32.le_of_lt hlt
  · exact heq ▸ UInt32.le_refl _

end Validator

/-- No problem is worded over several lines. -/
theorem Problem.feed_notMem_message (problem : Problem) : '\n' ∉ problem.message.toList := by
  cases problem <;> decide

/-- A program whose report is shown without sources, line by line. -/
structure Program.Plain (p : Program) : Prop where
  source : ∀ u ∈ p.units, u.source? = none
  path : ∀ u ∈ p.units, '\n' ∉ u.path.toList

/-- A text is a faithful account of a report on a program. -/
structure Faithful (p : Program) (r : ProgramReport) (text : String) : Prop where
  /-- The outcomes are those of the units, in order. -/
  paths : r.outcomes.map (·.path) = p.paths
  /-- The text consists of the lines of the accounts, and nothing else. -/
  lines : text = linesText (r.accounts.flatMap FailureAccount.lines)
  /-- No line is broken. -/
  unbroken : ∀ line ∈ r.accounts.flatMap FailureAccount.lines, '\n' ∉ line.toList
  /-- A failed unit has findings, in the order of their lines. -/
  ordered : ∀ a ∈ r.accounts, a.findings ≠ [] ∧ a.findings.Pairwise fun x y => x.1 ≤ y.1
  /-- What is read from the text is what the failures tell. -/
  read : readReport text = r.accounts

section Check

variable {p : Program} {settings : Settings} {r : ProgramReport}

/-- The lines that tell of a failed unit are not broken if its path is not. -/
theorem Validator.feed_notMem_lines {v : Validator} {u : SourceUnit} {i : Nat} {f : UnitFailure}
    (hf : v.outcomeOf u i = .failed f) (hpath : '\n' ∉ u.path.toList) :
    ∀ line ∈ f.account.lines, '\n' ∉ line.toList := by
  rw [FailureAccount.lines, List.forall_mem_cons]
  constructor
  · have hu : f.path = u.path := by rw [← path_outcomeOf u i, hf, UnitOutcome.path]
    show '\n' ∉ (headline f.path).toList
    simp [headline, hu, hpath]
  · -- besides fixed words a finding shows digits and the wording of a problem
    intro line hline
    obtain ⟨finding, hfinding, rfl⟩ := List.mem_map.1 hline
    obtain ⟨d, hd, rfl⟩ := List.mem_map.1 hfinding
    have hfound : d ∈ (v.outcomeOf u i).diagnostics := by rwa [hf]
    obtain ⟨problem, hmessage⟩ := exists_problem_of_mem_diagnostics hfound
    have hdigits : '\n' ∉ Nat.toDigits 10 d.position.line.toNat := fun h =>
      absurd (Nat.isDigit_of_mem_toDigits (by decide) (by decide) h) (by decide)
    simp [findingLine, hmessage, hdigits, problem.feed_notMem_message]

/-- The findings of a failed unit are told in the order of their lines, and there are some. -/
theorem Validator.findings_ordered {v : Validator} {u : SourceUnit} {i : Nat} {f : UnitFailure}
    (hf : v.outcomeOf u i = .failed f) :
    f.account.findings ≠ [] ∧ f.account.findings.Pairwise fun x y => x.1 ≤ y.1 := by
  have hordered := v.diagnostics_outcomeOf_ordered u i
  rw [hf] at hordered
  refine ⟨?_, List.pairwise_map.2 hordered⟩
  have hsome := v.outcomeOf_founded u i f hf
  simpa [UnitFailure.account] using hsome

/-- The text of the report of a check is a faithful account. -/
theorem faithful_of_checkProgram (hp : p.Plain) (hr : checkProgram p settings = .ok r)
    (colour : Bool) : Faithful p r (p.renderReport r colour) := by
  have hlength := (oneVerdict_of_checkProgram hr).length_outcomes
  have htext := renderReport_eq_linesText hlength hp.source colour
  obtain ⟨v, hv, rfl⟩ := map_validatorFor_eq_ok_iff.1 hr
  obtain rfl := Validator.program_of_ofProgram? hv
  -- each line tells of one unit of the program, and its path is not broken
  have hunbroken : ∀ line ∈ v.report.accounts.flatMap FailureAccount.lines, '\n' ∉ line.toList := by
    intro line hline
    obtain ⟨a, ha, hline⟩ := List.mem_flatMap.1 hline
    obtain ⟨f, hf, rfl⟩ := List.mem_map.1 ha
    obtain ⟨u, hu, i, hfailed⟩ := Validator.exists_unit_of_mem_failures hf
    exact Validator.feed_notMem_lines hfailed (hp.path u hu) line hline
  exact
    { paths := v.paths_outcomes_report
      lines := htext
      unbroken := hunbroken
      ordered := fun a ha => by
        obtain ⟨f, hf, rfl⟩ := List.mem_map.1 ha
        obtain ⟨u, -, i, hfailed⟩ := Validator.exists_unit_of_mem_failures hf
        exact Validator.findings_ordered hfailed
      read := by rw [htext, readReport_text hunbroken] }

end Check

/-- **A report tells its failures.** Of a program without sources whose paths are not broken, the
text of the report consists of the lines of the failed units: for each a headline with the path, and
one line for each finding, in the order of the lines that the findings are about. Clean units add
nothing. From the text the paths, lines and messages are read back, so two such reports of one text
tell of the same failures, whatever the programs and the settings. -/
theorem report_tells_failures {p q : Program} {settings settings' : Settings}
    {r r' : ProgramReport} (hp : p.Plain) (hq : q.Plain) (hr : checkProgram p settings = .ok r)
    (hr' : checkProgram q settings' = .ok r') (colour colour' : Bool) :
    Faithful p r (p.renderReport r colour) ∧ Faithful q r' (q.renderReport r' colour') ∧
      (p.renderReport r colour = q.renderReport r' colour' → r.accounts = r'.accounts) := by
  have htold := faithful_of_checkProgram hp hr colour
  have htold' := faithful_of_checkProgram hq hr' colour'
  refine ⟨htold, htold', fun htext => ?_⟩
  rw [← htold.read, htext, htold'.read]

/-! ### A path that looks like a report -/

namespace Misleading

/-- A rebind method without a type. -/
def untyped : Located MethodDecl :=
  ⟨{ name := "foo", annotations := [{ name := "com.google.gwt.core.shared.Rebind" }] }, .atLine 12⟩

/-- A class of such a method, in a file whose name quotes a headline and a finding. -/
def unit : SourceUnit where
  types := [⟨{ name := "test.Foo", kind := .classKind, methods := [untyped] }, .atLine 3⟩]
  path? := some "a' Line 3: Errors in 'b"

/-- A unit in which nothing is found. -/
def clean : SourceUnit where
  types := [⟨{ name := "test.Bar", kind := .classKind }, .atLine 3⟩]

/-- Settings that ask for a type. -/
def strict : Settings := { unspecified := .deny }

/-- The program of that unit. -/
def alone : Program := ⟨[unit]⟩

/-- The program of both. -/
def beside : Program := ⟨[clean, unit]⟩

/-- Beside a clean unit the report is the same text, and tells the same of the file by its name. -/
theorem told_by_its_name :
    ∃ r r', checkProgram alone strict = .ok r ∧ checkProgram beside strict = .ok r' ∧
      r.accounts = r'.accounts ∧ readReport (alone.renderReport r false) =
        [⟨"a' Line 3: Errors in 'b", [(12, "Rebind annotation must define a type")]⟩] := by
  obtain ⟨v, hv⟩ : ∃ v, Validator.ofProgram? alone strict = .ok v :=
    Validator.exists_ofProgram?_iff.2 (by decide)
  obtain ⟨w, hw⟩ : ∃ w, Validator.ofProgram? beside strict = .ok w :=
    Validator.exists_ofProgram?_iff.2 (by decide)
  have hr := checkProgram_eq_report hv
  have hr' := checkProgram_eq_report hw
  have htext : (checkProgram alone strict).map (fun r => alone.renderReport r false) =
      (checkProgram beside strict).map fun r => beside.renderReport r false := by cbv
  have haccounts : (checkProgram alone strict).map ProgramReport.accounts =
      .ok [⟨"a' Line 3: Errors in 'b", [(12, "Rebind annotation must define a type")]⟩] := by cbv
  rw [hr, hr'] at htext
  rw [hr] at haccounts
  have halone : alone.Plain := ⟨by decide, by decide⟩
  have hbeside : beside.Plain := ⟨by decide, by decide⟩
  obtain ⟨htold, -, hsame⟩ := report_tells_failures halone hbeside hr hr' false false
  exact ⟨_, _, hr, hr', hsame (Except.ok.inj htext), htold.read.trans (Except.ok.inj haccounts)⟩

end Misleading

end OverrideCheck
