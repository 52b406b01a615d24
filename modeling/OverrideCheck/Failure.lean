import OverrideCheck.Settings.Decode

/-!
# Failures of a run

What can keep a run from judging a program at all, as opposed to what is wrong with the program.

* `IoProblem` — why a file cannot be read as text;
* `Failure`, `Failure.message` — the failures and their wording.
-/

namespace OverrideCheck

/-- Why a file cannot be read as text. -/
inductive IoProblem
  | notFound
  | isDirectory
  /-- Something on the way to the file is no folder. -/
  | notInFolder
  | accessDenied
  /-- The file holds bytes that are no UTF-8. -/
  | notText
  /-- Any other reason, as the system tells it. -/
  | other (text : String)
deriving DecidableEq, Repr

/-- The wording of a problem with a file. -/
def IoProblem.message : IoProblem → String
  | .notFound => "No such file or directory (os error 2)"
  | .isDirectory => "Is a directory (os error 21)"
  | .notInFolder => "Not a directory (os error 20)"
  | .accessDenied => "Permission denied (os error 13)"
  | .notText => "stream did not contain valid UTF-8"
  | .other text => text

/-- What keeps a run from judging a program. -/
inductive Failure
  | io (path : String) (problem : IoProblem)
  /-- The text of the given origin is no declaration model. -/
  | invalidModel (origin reason : String)
  /-- Two types of the program have this name. -/
  | repeatedType (name : String)
  | settings (path : String) (problem : SettingsProblem)
deriving DecidableEq, Repr

/-- The wording of a failure. -/
def Failure.message : Failure → String
  | .io path problem => "I/O error on '" ++ path ++ "': " ++ problem.message
  | .invalidModel origin reason =>
    "Model error: " ++ origin ++ ": invalid declaration model: " ++ reason
  | .repeatedType name => "Model error: type '" ++ name ++ "' is declared more than once"
  | .settings path problem => "Config error in '" ++ path ++ "': " ++ problem.message

end OverrideCheck
