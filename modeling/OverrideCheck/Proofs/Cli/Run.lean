import Mathlib
import OverrideCheck.Cli.Run
import OverrideCheck.Proofs.Program.RoundTrip
import OverrideCheck.Proofs.Report.Verdict
import OverrideCheck.Proofs.Validation.Facts

/-!
# What a run of the check tells

A run looks at files in whatever way its surroundings allow, and decides by what it finds there.
`fst_run` takes the two apart: first the settings and the models are loaded, up to the first failure
(`Surroundings.load`), and then the outcome is a function of what was loaded (`Outcome.ofLoaded`).
What is said below of the outcomes of a check holds therefore in every monad, be the files those of
a disk or made up.

* `Surroundings.load`, `Outcome.ofLoaded`, `fst_run` — loading, and what follows from it;
* `checkAnswer_eq_map`, `checkProgram_dropSources` — the answer of a check is made of one report,
  and of the same one when sources are not shown;
* `Outcome.StoppedBy`, `Outcome.Tells` — what keeps a check from its answer, and what its exit code,
  its answer and its remarks tell;
* `run_tells_one_verdict` — they tell the verdict of the report, and so do the views of the report.
-/

namespace OverrideCheck

/-! ### Loading -/

/-- The units of several programs, in order. -/
def Program.mergeAll (programs : List Program) : Program := programs.foldr Program.merge {}

section Loading

variable {m : Type → Type} [Monad m]

/-- What a run loads: the settings first, and then one model file after the other. -/
def Surroundings.load (s : Surroundings m) (config? : Option String) (files : List String) :
    ExceptT Failure m (Settings × List Program) := do
  let settings ← ExceptT.mk (s.settings config?)
  let programs ← files.mapM fun path => ExceptT.mk (loadProgram s.files path)
  return (settings, programs)

/-- How a run ends that has an answer or a failure. -/
def Outcome.ofAnswer : Except Failure Answer → Outcome
  | .error failure => .stopped failure
  | .ok answer => .finished answer

/-- How a command ends, given what was loaded. -/
def Outcome.ofLoaded (command : Command) (colour : Bool)
    (loaded : Except Failure (Settings × List Program)) : Outcome :=
  .ofAnswer (loaded.bind fun (settings, programs) =>
    command.answer (.mergeAll programs) settings colour)

variable [LawfulMonad m]

/-- Model files are loaded one after the other, and their programs merged. -/
theorem loadPrograms_eq_map (files : FileAccess m) (paths : List String) :
    loadPrograms files paths = Except.map Program.mergeAll <$>
      (paths.mapM fun path => ExceptT.mk (loadProgram files path)).run := by
  induction paths with
  | nil => simp [loadPrograms, Except.map, Program.mergeAll]
  | cons path rest ih =>
    rw [loadPrograms, List.mapM_cons, ExceptT.run_bind, ExceptT.run_mk, map_bind]
    refine congrArg (loadProgram files path >>= ·) (funext fun first => ?_)
    cases first with
    | error failure => simp [Except.map]
    | ok program =>
      -- the first program is merged with the others, once they are loaded
      simp only [bind_pure_comp, ih, ExceptT.run_map, Functor.map_map]
      refine congrArg (· <$> _) (funext fun others => ?_)
      cases others with
      | error failure => rfl
      | ok programs => rfl

/-- A command ends as its answer for the merged program does. -/
theorem fst_runCommand (s : Surroundings m) (settings : Settings) (command : Command) :
    Prod.fst <$> runCommand s settings command =
      (fun loaded : Except Failure Program => Outcome.ofAnswer (loaded.bind fun program =>
        command.answer program settings s.colour)) <$> loadPrograms s.files command.files := by
  rw [runCommand, map_bind, map_eq_pure_bind]
  refine congrArg (loadPrograms s.files command.files >>= ·) (funext fun loaded => ?_)
  cases loaded with
  | error failure => simp [Except.bind, Outcome.ofAnswer]
  | ok program =>
    simp only [Except.bind]
    cases command.answer program settings s.colour with
    | error failure => simp [Outcome.ofAnswer]
    | ok answer => simp [Outcome.ofAnswer]

/-- The outcome of a run is a function of what it loads. -/
theorem fst_run (s : Surroundings m) {words : List String} {config? : Option String}
    {command : Command} (h : Request.parse words = .ok (.run config? command)) :
    Prod.fst <$> run s words =
      Outcome.ofLoaded command s.colour <$> (s.load config? command.files).run := by
  rw [run, h, map_bind, Surroundings.load, ExceptT.run_bind, ExceptT.run_mk, map_bind]
  -- without settings no model is looked at, on either side
  refine congrArg (s.settings config? >>= ·) (funext fun settings => ?_)
  cases settings with
  | error failure => simp [Outcome.ofLoaded, Except.bind, Outcome.ofAnswer]
  | ok settings =>
    simp only [fst_runCommand, loadPrograms_eq_map, bind_pure_comp, ExceptT.run_map,
      Functor.map_map]
    refine congrArg (· <$> _) (funext fun loaded => ?_)
    cases loaded with
    | error failure => rfl
    | ok programs => rfl

end Loading

/-! ### The answer of a check -/

/-- Sources have no part in a check. -/
theorem checkProgram_dropSources (p : Program) (settings : Settings) :
    checkProgram p.dropSources settings = checkProgram p settings := by
  have hfacts : settings.names.facts p.dropSources = settings.names.facts p := by
    rw [AnnotationNames.facts, AnnotationNames.facts, Program.dropSources, List.map_map]
    rfl
  exact map_validatorFor_congr (map_name_types_of_facts_eq hfacts) fun v w hv hw =>
    Validator.report_of_facts_eq hv hw hfacts

/-- The program as it is shown: without its sources if it is to be shown plainly. -/
def Program.shown (flags : List CheckFlag) (p : Program) : Program :=
  if .plain ∈ flags then p.dropSources else p

/-- The answer of a check whose report is known. -/
def Answer.ofReport (flags : List CheckFlag) (colour : Bool) (p : Program) (r : ProgramReport) :
    Answer where
  clean := r.isClean
  output := if .json ∈ flags then diagnosticsText r.diagnostics ++ "\n" else ""
  remarks := (p.shown flags).renderReport r colour ++ r.summary

/-- The answer of a check is that of the report on the program, whether its sources are shown or
not. -/
theorem checkAnswer_eq_map (flags : List CheckFlag) (p : Program) (settings : Settings)
    (colour : Bool) : checkAnswer flags p settings colour =
      (checkProgram p settings).map (Answer.ofReport flags colour p) := by
  -- what is shown and what is checked are the same program, up to its sources
  have hshown : checkProgram (p.shown flags) settings = checkProgram p settings := by
    rw [Program.shown]
    split
    · exact checkProgram_dropSources p settings
    · rfl
  rw [← hshown]
  change (checkProgram (p.shown flags) settings >>= _) = _
  cases checkProgram (p.shown flags) settings with
  | error failure => rfl
  | ok r => rfl

/-- The last remark of a check counts the units that are not clean. -/
theorem ProgramReport.summary_eq (r : ProgramReport) : r.summary =
    if (r.outcomes.countP fun o => !o.isClean) = 0 then
      "rebindc: " ++ Nat.repr r.outcomes.length ++ " unit(s) checked, no errors\n"
    else
      "rebindc: " ++ Nat.repr (r.outcomes.countP fun o => !o.isClean) ++ " of " ++
        Nat.repr r.outcomes.length ++ " unit(s) failed\n" := by
  rw [← length_failures, summary]
  cases r.failures with
  | nil => rfl
  | cons first rest => rfl

theorem diagnosticsText_eq_iff {ds : List Diagnostic} : diagnosticsText ds = "[]" ↔ ds = [] := by
  cases ds with
  | nil => simp [diagnosticsText, Json.Value.pretty, Json.Value.prettyAt]
  | cons d rest =>
    simp [diagnosticsText, Json.Value.pretty, Json.Value.prettyAt, Json.newLine, String.ext_iff]

namespace Outcome

/-- What the end of a check tells of the report on a program. -/
structure TellsReport (flags : List CheckFlag) (colour : Bool) (p : Program) (r : ProgramReport)
    (o : Outcome) : Prop where
  /-- The code is 0 if the program is clean, and 1 if not. -/
  exitCode : o.exitCode = if r.isClean then 0 else 1
  /-- The diagnostics are listed if they are asked for. -/
  output : o.output = if .json ∈ flags then diagnosticsText r.diagnostics ++ "\n" else ""
  /-- There are none exactly when the code is 0. -/
  diagnostics : r.diagnostics = [] ↔ o.exitCode = 0
  /-- So the list that is written is the empty one exactly then. -/
  listed : .json ∈ flags → (o.output = "[]\n" ↔ o.exitCode = 0)
  /-- The report is shown, and then the units that are not clean are counted. -/
  remarks : o.remarks = (p.shown flags).renderReport r colour ++
    if (r.outcomes.countP fun o => !o.isClean) = 0 then
      "rebindc: " ++ Nat.repr p.units.length ++ " unit(s) checked, no errors\n"
    else
      "rebindc: " ++ Nat.repr (r.outcomes.countP fun o => !o.isClean) ++ " of " ++
        Nat.repr p.units.length ++ " unit(s) failed\n"
  /-- There are some exactly when the code is 1. -/
  failed : 0 < (r.outcomes.countP fun o => !o.isClean) ↔ o.exitCode = 1

/-- The code of a finished run is 0 if nothing was found wrong, and 1 otherwise. -/
theorem exitCode_finished_iff (answer : Answer) :
    ((finished answer).exitCode = 0 ↔ answer.clean = true) ∧
      ((finished answer).exitCode = 1 ↔ answer.clean = false) := by
  rw [exitCode]
  cases answer.clean with
  | false => simp
  | true => simp

/-- A finished check tells of its report. -/
theorem tellsReport_finished {p : Program} {r : ProgramReport} (h : r.OneVerdict p)
    (flags : List CheckFlag) (colour : Bool) :
    (finished (.ofReport flags colour p r)).TellsReport flags colour p r := by
  -- the code is that of the first view, and the others are compared with that
  obtain ⟨hzero, hone⟩ := exitCode_finished_iff (.ofReport flags colour p r)
  have hdiagnostics : r.diagnostics = [] ↔ r.isClean = true := (h.views colour).out 2 0
  have hfailures : r.failures = [] ↔ r.isClean = true := (h.views colour).out 1 0
  exact
    { exitCode := rfl
      output := rfl
      diagnostics := hdiagnostics.trans hzero.symm
      listed := fun hjson => by
        have htext : (finished (.ofReport flags colour p r)).output =
            diagnosticsText r.diagnostics ++ "\n" := if_pos hjson
        rw [hzero, htext, show "[]\n" = "[]" ++ "\n" from rfl, String.append_left_inj,
          diagnosticsText_eq_iff]
        exact hdiagnostics
      remarks := by
        rw [← h.length_outcomes, ← r.summary_eq]
        rfl
      failed := by
        rw [hone, ← r.length_failures, List.length_pos_iff, Ne, hfailures, Bool.not_eq_true]
        rfl }

/-- What keeps a check from its answer: something that cannot be loaded, or a type name that occurs
twice in what was loaded. -/
def StoppedBy (loaded : Except Failure (Settings × List Program)) (failure : Failure) : Prop :=
  loaded = .error failure ∨ ∃ settings programs name, loaded = .ok (settings, programs) ∧
    TypeIndex.ofProgram? (.mergeAll programs) = .error name ∧ failure = .repeatedType name

/-- What the end of a check tells of what was loaded. -/
structure Tells (flags : List CheckFlag) (colour : Bool)
    (loaded : Except Failure (Settings × List Program)) (o : Outcome) : Prop where
  /-- The code is 2 exactly when something keeps the check from its answer. -/
  exitCode_eq_two_iff : o.exitCode = 2 ↔ ∃ failure, StoppedBy loaded failure
  /-- Then there is no answer, and the only remark is what it was. -/
  stopped : ∀ failure, StoppedBy loaded failure →
    o.output = "" ∧ o.remarks = "error: " ++ failure.message ++ "\n"
  /-- Otherwise there is a report on the merged program, and its verdict is told. -/
  judged : o.exitCode ≠ 2 → ∃ settings programs r, loaded = .ok (settings, programs) ∧
    checkProgram (.mergeAll programs) settings = .ok r ∧
    o.TellsReport flags colour (.mergeAll programs) r

section Loaded

variable {loaded : Except Failure (Settings × List Program)}

/-- A check is kept from its answer exactly when there is no report, and by the same failure. -/
theorem stoppedBy_iff {failure : Failure} : StoppedBy loaded failure ↔
    (loaded.bind fun (settings, programs) => checkProgram (.mergeAll programs) settings) =
      .error failure := by
  cases loaded with
  | error found => simp [StoppedBy, Except.bind]
  | ok found =>
    obtain ⟨settings, programs⟩ := found
    change _ ↔ checkProgram (.mergeAll programs) settings = .error failure
    simp [StoppedBy, checkProgram, map_validatorFor_eq_error_iff]

/-- Of a program that was loaded and has a report, that report is told. -/
theorem Tells.tellsReport {flags : List CheckFlag} {colour : Bool} {settings : Settings}
    {programs : List Program} {r : ProgramReport} {o : Outcome}
    (h : o.Tells flags colour (.ok (settings, programs)))
    (hr : checkProgram (.mergeAll programs) settings = .ok r) :
    o.TellsReport flags colour (.mergeAll programs) r := by
  have hended : o.exitCode ≠ 2 := fun htwo => by
    obtain ⟨failure, hfailure⟩ := h.exitCode_eq_two_iff.1 htwo
    cases hr.symm.trans (stoppedBy_iff.1 hfailure)
  -- what was judged is what was loaded, and it has one report only
  obtain ⟨settings, programs, r', hloaded, hr', htold⟩ := h.judged hended
  cases hloaded
  obtain rfl := Except.ok.inj (hr.symm.trans hr')
  exact htold

/-- A check that something keeps from its answer is stopped by it. -/
theorem ofLoaded_of_stoppedBy {failure : Failure} (h : StoppedBy loaded failure)
    (files : List String) (flags : List CheckFlag) (colour : Bool) :
    ofLoaded (.check files flags) colour loaded = .stopped failure := by
  rw [stoppedBy_iff] at h
  cases loaded with
  | error found =>
    cases h
    rfl
  | ok found =>
    obtain ⟨settings, programs⟩ := found
    have hrefused : checkProgram (.mergeAll programs) settings = .error failure := h
    change ofAnswer (checkAnswer flags (.mergeAll programs) settings colour) = _
    rw [checkAnswer_eq_map, hrefused]
    rfl

/-- Any other check is finished with the answer of its report. -/
theorem exists_report_of_not_stoppedBy (h : ∀ failure, ¬ StoppedBy loaded failure) :
    ∃ settings programs r, loaded = .ok (settings, programs) ∧
      checkProgram (.mergeAll programs) settings = .ok r ∧ ∀ files flags colour,
        ofLoaded (.check files flags) colour loaded =
          .finished (.ofReport flags colour (.mergeAll programs) r) := by
  simp only [stoppedBy_iff] at h
  cases loaded with
  | error failure => exact absurd rfl (h failure)
  | ok found =>
    obtain ⟨settings, programs⟩ := found
    cases hr : checkProgram (.mergeAll programs) settings with
    | error failure => exact absurd hr (h failure)
    | ok r =>
      refine ⟨settings, programs, r, rfl, hr, fun files flags colour => ?_⟩
      change ofAnswer (checkAnswer flags (.mergeAll programs) settings colour) = _
      rw [checkAnswer_eq_map, hr]
      rfl

/-- The end of a check tells of what was loaded. -/
theorem tells_ofLoaded (files : List String) (flags : List CheckFlag) (colour : Bool)
    (loaded : Except Failure (Settings × List Program)) :
    (ofLoaded (.check files flags) colour loaded).Tells flags colour loaded := by
  by_cases h : ∃ failure, StoppedBy loaded failure
  · -- something keeps the check from its answer, and nothing but that is told
    have htwo : (ofLoaded (.check files flags) colour loaded).exitCode = 2 := by
      obtain ⟨failure, hfailure⟩ := h
      rw [ofLoaded_of_stoppedBy hfailure]
      rfl
    refine ⟨iff_of_true htwo h, fun failure hfailure => ?_, absurd htwo⟩
    rw [ofLoaded_of_stoppedBy hfailure]
    exact ⟨rfl, rfl⟩
  · obtain ⟨settings, programs, r, hloaded, hr, hfinished⟩ :=
      exists_report_of_not_stoppedBy fun failure hfailure => h ⟨failure, hfailure⟩
    have htells := tellsReport_finished (oneVerdict_of_checkProgram hr) flags colour
    rw [← hfinished files flags colour] at htells
    -- a finished check ends with 0 or 1
    have htwo : (ofLoaded (.check files flags) colour loaded).exitCode ≠ 2 := by
      rw [htells.exitCode]
      split
      · decide
      · decide
    exact ⟨iff_of_false htwo h, fun failure hfailure => absurd ⟨failure, hfailure⟩ h,
      fun _ => ⟨settings, programs, r, hloaded, hr, htells⟩⟩

/-- Neither the code nor the answer of a check depends on any flag but the one for the list. -/
theorem ofLoaded_congr {files files' : List String} {flags flags' : List CheckFlag}
    (hjson : .json ∈ flags' ↔ .json ∈ flags) (colour : Bool)
    (loaded : Except Failure (Settings × List Program)) :
    let o := ofLoaded (.check files flags) colour loaded
    let o' := ofLoaded (.check files' flags') colour loaded
    o'.exitCode = o.exitCode ∧ o'.output = o.output := by
  intro o o'
  by_cases h : ∃ failure, StoppedBy loaded failure
  · obtain ⟨failure, hfailure⟩ := h
    -- what stops a check stops it under any flags
    have hsame : o' = o := (ofLoaded_of_stoppedBy hfailure files' flags' colour).trans
      (ofLoaded_of_stoppedBy hfailure files flags colour).symm
    rw [hsame]
    exact ⟨rfl, rfl⟩
  · obtain ⟨settings, programs, r, -, hr, hfinished⟩ :=
      exists_report_of_not_stoppedBy fun failure hfailure => h ⟨failure, hfailure⟩
    -- there is one report, whatever the flags, and both ends tell of it
    have htells := tellsReport_finished (oneVerdict_of_checkProgram hr) flags colour
    have htells' := tellsReport_finished (oneVerdict_of_checkProgram hr) flags' colour
    rw [← hfinished files flags colour] at htells
    rw [← hfinished files' flags' colour] at htells'
    refine ⟨htells'.exitCode.trans htells.exitCode.symm, ?_⟩
    rw [htells'.output, htells.output]
    exact if_congr hjson rfl rfl

end Loaded

end Outcome

/-- **All views of a run tell one verdict.** The report of a check has an outcome for each unit, and
to ask whether it is clean, for its failures, for its diagnostics, for the verdicts or for its text
is to ask the same; each failure bears the path of its unit and has a diagnostic.

Of a run that gets as far as a check, whatever it runs in, the outcome is a function of what it
loads. The exit code is 2 exactly when the settings or a model cannot be loaded or a type name
occurs twice; then there is no answer, and the failure is all that is remarked. Otherwise there is a
report on the merged program: the code is 0 if it is clean and 1 if not, the list of diagnostics is
empty exactly when the code is 0, and the number of failed units that is remarked is that of the
outcomes that are not clean. Of two command lines that differ in flags, but not in whether the list
is asked for, the exit code and the answer are the same. -/
theorem run_tells_one_verdict :
    (∀ (p : Program) (settings : Settings) (r : ProgramReport),
      checkProgram p settings = .ok r → r.OneVerdict p) ∧
    ∀ {m : Type → Type} [Monad m] [LawfulMonad m] (s : Surroundings m) (words : List String)
      (config? : Option String) (files : List String) (flags : List CheckFlag),
      Request.parse words = .ok (.run config? (.check files flags)) →
      (∃ outcome : Except Failure (Settings × List Program) → Outcome,
        Prod.fst <$> run s words = outcome <$> (s.load config? files).run ∧
          ∀ loaded, (outcome loaded).Tells flags s.colour loaded) ∧
      ∀ words' flags', Request.parse words' = .ok (.run config? (.check files flags')) →
        (.json ∈ flags' ↔ .json ∈ flags) →
        (fun o : Outcome => (o.exitCode, o.output)) <$> Prod.fst <$> run s words' =
          (fun o : Outcome => (o.exitCode, o.output)) <$> Prod.fst <$> run s words := by
  refine ⟨fun p settings r => oneVerdict_of_checkProgram, ?_⟩
  intro m _ _ s words config? files flags hparse
  refine ⟨⟨Outcome.ofLoaded (.check files flags) s.colour, fst_run s hparse,
    Outcome.tells_ofLoaded files flags s.colour⟩, fun words' flags' hparse' hjson => ?_⟩
  rw [fst_run s hparse, fst_run s hparse', Functor.map_map, Functor.map_map]
  refine congrArg (· <$> _) (funext fun loaded => ?_)
  -- both runs load the same, so it is enough to compare the ends that one load leads to
  obtain ⟨hcode, houtput⟩ := Outcome.ofLoaded_congr hjson s.colour loaded
  exact Prod.ext hcode houtput

/-! ### Runs on files that are made up -/

namespace Made

/-- A method under the protocol that leaves its type open, and a unit without types. -/
def program : Program where
  units := [
    { types := [⟨{
        name := "test.Api"
        kind := .interfaceKind
        methods := [⟨{
          name := "foo"
          annotations := [{ name := "com.google.gwt.core.shared.Rebind" }] }, .atLine 4⟩] },
        .atLine 3⟩] },
    {}]

/-- Settings that ask for every type. -/
def strict : String := "[validation]\nunspecified = \"deny\"\n"

/-- A model of the program, and those settings. -/
def files : FileAccess Id where
  readText path :=
    if path = "model.json" then .ok program.toJson.compact
    else if path = "strict.toml" then .ok strict
    else .error .notFound
  isFile _ := false
  isThere _ := false

/-- A folder from which these files are seen, in no repository. -/
def surroundings : Surroundings Id := { files, folder := "/" }

/-- The same files, seen from a folder that is gone. -/
def nowhere : Surroundings Id := { files, folder := pure (.error .notFound) }

/-- What is found wrong if every type has to be given. -/
def failure : UnitFailure where
  path := "test/Api.java"
  diagnostics := [
    { unit := "test/Api.java"
      position := .atLine 4
      message := "Rebind annotation must define a type" }]

theorem loadProgram_model : loadProgram files "model.json" = pure (.ok program) := by
  have hdepth : program.toJson.depth < Json.containerRoom := by decide
  -- the text of the model is not scanned here: what is written is read back
  have hparse : parseProgram program.toJson.compact "model.json" = .ok program := by
    rw [parseProgram,
      Json.eq_ok_of_toOption ((toOption_parse_compact program).trans (if_pos hdepth))]
    rfl
  rw [← hparse]
  rfl

theorem loadProgram_other :
    loadProgram files "other.json" = pure (.error (.io "other.json" .notFound)) := rfl

theorem settings_none : surroundings.settings none = pure (.ok {}) := rfl

theorem settings_strict :
    nowhere.settings (some "strict.toml") = pure (.ok { unspecified := .deny }) := by
  have hparse : Settings.parse strict = .ok { unspecified := .deny } := by decide +kernel
  have hload : nowhere.settings (some "strict.toml") =
      pure ((Settings.parse strict).mapError (Failure.settings "strict.toml")) := rfl
  rw [hload, hparse]
  rfl

/-- The model is loaded under whatever settings hold. -/
theorem load_model {s : Surroundings Id} (hfiles : s.files = files) {config? : Option String}
    {settings : Settings} (h : s.settings config? = pure (.ok settings)) :
    (s.load config? ["model.json"]).run = pure (.ok (settings, [program])) := by
  rw [Surroundings.load, ExceptT.run_bind, ExceptT.run_mk, h, pure_bind, hfiles]
  simp [loadProgram_model]

/-- Loading ends with the file that is not there. -/
theorem load_other : (surroundings.load none ["model.json", "other.json"]).run =
    pure (.error (.io "other.json" .notFound)) := by
  have hmodel : loadProgram surroundings.files "model.json" = _ := loadProgram_model
  have hother : loadProgram surroundings.files "other.json" = _ := loadProgram_other
  rw [Surroundings.load, ExceptT.run_bind, ExceptT.run_mk, settings_none, pure_bind]
  simp [hmodel, hother, ExceptT.run_bind]

theorem load_nowhere : (nowhere.load none ["model.json"]).run =
    pure (.error (.io "." .notFound)) := rfl

theorem checkProgram_none : checkProgram (.mergeAll [program]) {} =
    .ok ⟨[.clean ⟨"test/Api.java", 1⟩, .clean ⟨"<unknown>", 0⟩]⟩ := by cbv

theorem checkProgram_strict : checkProgram (.mergeAll [program]) { unspecified := .deny } =
    .ok ⟨[.failed failure, .clean ⟨"<unknown>", 0⟩]⟩ := by cbv

/-- The code a command line ends with, its answer and what it remarks. -/
def told (s : Surroundings Id) (words : List String) : UInt8 × String × String :=
  ((run s words).1.exitCode, (run s words).1.output, (run s words).1.remarks)

section Told

variable {s : Surroundings Id} {words paths : List String} {config? : Option String}
  {flags : List CheckFlag} {outcome : Except Failure (Settings × List Program) → Outcome}

theorem told_eq {code : UInt8} {output remarks : String} (hcode : (run s words).1.exitCode = code)
    (houtput : (run s words).1.output = output) (hremarks : (run s words).1.remarks = remarks) :
    told s words = (code, output, remarks) := by
  rw [told, hcode, houtput, hremarks]

/-- Runs that end with equal codes and answers end with equal codes. -/
theorem exitCode_eq {words' : List String}
    (h : (fun o : Outcome => (o.exitCode, o.output)) <$> Prod.fst <$> run s words' =
      (fun o : Outcome => (o.exitCode, o.output)) <$> Prod.fst <$> run s words) :
    (run s words').1.exitCode = (run s words).1.exitCode :=
  congrArg Prod.fst h

/-- Where everything can be loaded, the report on the program is told. -/
theorem tellsReport_of_checkProgram {settings : Settings} {programs : List Program}
    {r : ProgramReport} (hrun : Prod.fst <$> run s words = outcome <$> (s.load config? paths).run)
    (htells : ∀ loaded, (outcome loaded).Tells flags s.colour loaded)
    (hload : (s.load config? paths).run = pure (.ok (settings, programs)))
    (hreport : checkProgram (.mergeAll programs) settings = .ok r) :
    (run s words).1.TellsReport flags s.colour (.mergeAll programs) r := by
  rw [hload, map_pure] at hrun
  have hend : (run s words).1 = outcome (.ok (settings, programs)) := hrun
  rw [hend]
  exact (htells _).tellsReport hreport

/-- What is told if something cannot be loaded. -/
theorem told_of_load_eq_error {f : Failure}
    (hrun : Prod.fst <$> run s words = outcome <$> (s.load config? paths).run)
    (htells : ∀ loaded, (outcome loaded).Tells flags s.colour loaded)
    (hload : (s.load config? paths).run = pure (.error f)) :
    told s words = (2, "", "error: " ++ f.message ++ "\n") := by
  rw [hload, map_pure] at hrun
  have hend : (run s words).1 = outcome (.error f) := hrun
  have hstopped : Outcome.StoppedBy (.error f) f := Or.inl rfl
  obtain ⟨houtput, hremarks⟩ := (htells _).stopped f hstopped
  rw [← hend] at houtput hremarks
  exact told_eq (hend ▸ (htells _).exitCode_eq_two_iff.2 ⟨f, hstopped⟩) houtput hremarks

end Told

/-- Under the defaults nothing is wrong, whatever flags are added; under the stricter settings one
of two units fails. With a file that is not there a check has no answer, nor has one in a folder
that is gone, unless its settings are named. -/
theorem clean_failed_or_stopped :
    (told surroundings ["check", "--json", "model.json"] =
        (0, "[]\n", "rebindc: 2 unit(s) checked, no errors\n") ∧
      (run surroundings ["check", "--serial", "--json", "--plain", "model.json"]).1.exitCode = 0) ∧
    told nowhere ["--config", "strict.toml", "check", "--json", "model.json"] =
      (1, diagnosticsText failure.diagnostics ++ "\n",
        "Errors in 'test/Api.java'\n  Line 4: Rebind annotation must define a type\n" ++
          "rebindc: 1 of 2 unit(s) failed\n") ∧
    told surroundings ["check", "model.json", "other.json"] =
      (2, "", "error: I/O error on 'other.json': No such file or directory (os error 2)\n") ∧
    told nowhere ["check", "model.json"] =
      (2, "", "error: I/O error on '.': No such file or directory (os error 2)\n") := by
  refine ⟨?_, ?_, ?_, ?_⟩
  · obtain ⟨⟨outcome, hrun, htells⟩, hflags⟩ := run_tells_one_verdict.2 surroundings
      ["check", "--json", "model.json"] none ["model.json"] [.json] rfl
    have htold := tellsReport_of_checkProgram hrun htells (load_model rfl settings_none)
      checkProgram_none
    have hsame := exitCode_eq (hflags ["check", "--serial", "--json", "--plain", "model.json"]
      [.serial, .json, .plain] rfl (by decide))
    have houtput := (htold.listed (by decide)).2 htold.exitCode
    exact ⟨told_eq htold.exitCode houtput (htold.remarks.trans (by decide)),
      hsame.trans htold.exitCode⟩
  · obtain ⟨⟨outcome, hrun, htells⟩, -⟩ := run_tells_one_verdict.2 nowhere
      ["--config", "strict.toml", "check", "--json", "model.json"] (some "strict.toml")
      ["model.json"] [.json] rfl
    have htold := tellsReport_of_checkProgram hrun htells (load_model rfl settings_strict)
      checkProgram_strict
    exact told_eq htold.exitCode htold.output (htold.remarks.trans (by decide))
  · obtain ⟨⟨outcome, hrun, htells⟩, -⟩ := run_tells_one_verdict.2 surroundings
      ["check", "model.json", "other.json"] none ["model.json", "other.json"] [] rfl
    exact told_of_load_eq_error hrun htells load_other
  · obtain ⟨⟨outcome, hrun, htells⟩, -⟩ := run_tells_one_verdict.2 nowhere
      ["check", "model.json"] none ["model.json"] [] rfl
    exact told_of_load_eq_error hrun htells load_nowhere

end Made

end OverrideCheck
