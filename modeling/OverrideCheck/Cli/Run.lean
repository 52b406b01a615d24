import OverrideCheck.Cli.Arguments
import OverrideCheck.Files
import OverrideCheck.Report.Encode
import OverrideCheck.Report.PlainText
import OverrideCheck.Trace.Log

/-!
# A run

A run answers a command line. The settings are loaded first, then the models; the first failure
ends the run. What a run writes is kept apart by where it goes: its answer, its remarks, and its
log.

* `Answer` — what a finished run writes, and whether it found anything wrong;
* `checkAnswer`, `contractsAnswer` — the answers for a program;
* `Outcome` — how a run ends, with its exit code and the texts it leaves;
* `Surroundings`, `run` — the run in given surroundings.
-/

namespace OverrideCheck

/-- What a finished run writes. -/
structure Answer where
  /-- Nothing was found wrong. -/
  clean : Bool
  output : String := ""
  remarks : String := ""

/-- The last remark of a check: how many units were checked or failed. -/
def ProgramReport.summary (r : ProgramReport) : String :=
  let units := Nat.repr r.outcomes.length
  match r.failures with
  | [] => "rebindc: " ++ units ++ " unit(s) checked, no errors\n"
  | failures => "rebindc: " ++ Nat.repr failures.length ++ " of " ++ units ++ " unit(s) failed\n"

/-- The answer of a check. -/
def checkAnswer (flags : List CheckFlag) (program : Program) (settings : Settings)
    (colour : Bool) : Except Failure Answer := do
  let program := if .plain ∈ flags then program.dropSources else program
  let report ← checkProgram program settings
  return {
    clean := report.isClean
    output := if .json ∈ flags then diagnosticsText report.diagnostics ++ "\n" else ""
    remarks := program.renderReport report colour ++ report.summary }

/-- The answer of a listing of contracts. -/
def contractsAnswer (program : Program) (settings : Settings) : Except Failure Answer := do
  return { clean := true, output := contractsText (← contractsOf program settings) ++ "\n" }

namespace Command

/-- The model files of a command. -/
def files : Command → List String
  | .check files _ => files
  | .contracts files => files

/-- The answer of a command for a program. -/
def answer (c : Command) (program : Program) (settings : Settings) (colour : Bool) :
    Except Failure Answer :=
  match c with
  | .check _ flags => checkAnswer flags program settings colour
  | .contracts _ => contractsAnswer program settings

/-- The events of a command for a program. -/
def events (c : Command) (program : Program) (settings : Settings) : List Event :=
  match Account.ofProgram? program settings with
  | .error _ => []
  | .ok account =>
    match c with
    | .check _ _ => account.reportEvents
    | .contracts _ => account.contractEvents

end Command

/-- How a run ends. -/
inductive Outcome
  | version
  /-- The command line asks for nothing that can be done. -/
  | misused (problem : UsageProblem)
  /-- Something keeps the run from an answer. -/
  | stopped (failure : Failure)
  | finished (answer : Answer)

namespace Outcome

/-- The code a run ends with: 0 if nothing was found wrong, 1 if something was, and 2 if there is
no answer. -/
def exitCode : Outcome → UInt8
  | .version => 0
  | .misused _ => 2
  | .stopped _ => 2
  | .finished answer => if answer.clean then 0 else 1

/-- What a run writes as its answer. -/
def output : Outcome → String
  | .version => "rebindc 0.1.0\n"
  | .misused _ => ""
  | .stopped _ => ""
  | .finished answer => answer.output

/-- What a run remarks. -/
def remarks : Outcome → String
  | .version => ""
  | .misused problem => "error: " ++ problem.message ++ "\n"
  | .stopped failure => "error: " ++ failure.message ++ "\n"
  | .finished answer => answer.remarks

end Outcome

/-- Where a run takes place. -/
structure Surroundings (m : Type → Type) where
  files : FileAccess m
  /-- The folder the run starts in. It may be gone, or closed to the run. -/
  folder : m (Except IoProblem String)
  /-- How a log is to be kept, if at all. -/
  log? : Option Log := none
  /-- Remarks may be coloured. -/
  colour : Bool := false

variable {m : Type → Type} [Monad m]

/-- A path stands for the folder at it, where this is known. -/
instance : Coe String (m (Except IoProblem String)) := ⟨fun path => pure (.ok path)⟩

namespace Surroundings

/-- The events that the log of a run takes up. They are not asked for if there is no log. -/
def entries (s : Surroundings m) (events : Unit → List Event) : List Event :=
  match s.log? with
  | none => []
  | some log => log.entries (events ())

/-- The settings of the named file, or else those that hold in the folder of the run. That folder
is only asked for if no file is named. -/
def settings (s : Surroundings m) (config? : Option String) : m (Except Failure Settings) := do
  match config? with
  | some path => loadSettings s.files path
  | none =>
    match ← s.folder with
    | .error problem => return .error (.io "." problem)
    | .ok folder => discoverSettings s.files folder

end Surroundings

/-- Does what a command asks for, once the settings are known. -/
def runCommand (s : Surroundings m) (settings : Settings) (command : Command) :
    m (Outcome × List Event) := do
  let loaded := s.entries fun _ => [settingsEvent settings]
  match ← loadPrograms s.files command.files with
  | .error failure => return (.stopped failure, loaded)
  | .ok program =>
    let events := loaded ++ s.entries fun _ => command.events program settings
    match command.answer program settings s.colour with
    | .error failure => return (.stopped failure, events)
    | .ok answer => return (.finished answer, events)

/-- The outcome of a command line, and the events that the log takes up. -/
def run (s : Surroundings m) (words : List String) : m (Outcome × List Event) := do
  match Request.parse words with
  | .error problem => return (.misused problem, [])
  | .ok .version => return (.version, [])
  | .ok (.run config? command) =>
    match ← s.settings config? with
    | .error failure => return (.stopped failure, [])
    | .ok settings => runCommand s settings command

end OverrideCheck
