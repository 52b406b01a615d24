import OverrideCheck.Failure
import OverrideCheck.Program.Decode
import OverrideCheck.Validation.Basic

/-!
# Checking a program

The check as its callers see it, with everything that can keep it from an answer as a failure.

* `parseProgram` — the program of a text;
* `validatorFor`, `checkProgram` — the validator of a program, and its report;
* `contractsOf` — the contracts of a program.
-/

namespace OverrideCheck

/-- The program of a text from the given origin. -/
def parseProgram (text origin : String) : Except Failure Program :=
  (Program.parse text).mapError (Failure.invalidModel origin)

/-- The validator of a program under the given settings. -/
def validatorFor (program : Program) (settings : Settings) : Except Failure Validator :=
  (Validator.ofProgram? program settings).mapError Failure.repeatedType

/-- The report on a program. -/
def checkProgram (program : Program) (settings : Settings) : Except Failure ProgramReport :=
  (validatorFor program settings).map (·.report)

/-- The contracts of a program. -/
def contractsOf (program : Program) (settings : Settings) : Except Failure (List RebindContract) :=
  (validatorFor program settings).map (·.contracts)

end OverrideCheck
