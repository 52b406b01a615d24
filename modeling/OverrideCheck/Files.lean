import OverrideCheck.Check
import OverrideCheck.Path

/-!
# Files of a run

The files a run reads: the settings, which are looked for from a folder upwards, and declaration
models. How files are looked at is left open, so that every statement about a run holds for every
file system.

* `FileAccess` — the questions that are asked of a file system;
* `findSettings` — the settings file that is nearest on the way up, up to the root of a repository;
* `loadSettings`, `discoverSettings` — the settings of a file, and those that hold in a folder;
* `loadProgram`, `loadPrograms` — the program of one model file and of several.
-/

namespace OverrideCheck

/-- What can be asked of a file system. -/
structure FileAccess (m : Type → Type) where
  readText : String → m (Except IoProblem String)
  /-- There is a file, and not a folder, at the path. -/
  isFile : String → m Bool
  /-- There is anything at the path. -/
  isThere : String → m Bool

variable {m : Type → Type} [Monad m]

/-- The name of a settings file. -/
def settingsFile : String := "rebind.toml"

/-- What marks the root of a repository. -/
def repositoryMark : String := ".git"

/-- The first settings file in a list of folders. The search ends with the first folder that is
the root of a repository. -/
def findSettings (files : FileAccess m) : List String → m (Option String)
  | [] => pure none
  | folder :: rest => do
    let candidate := joinPath folder settingsFile
    if ← files.isFile candidate then return some candidate
    if ← files.isThere (joinPath folder repositoryMark) then return none
    findSettings files rest

/-- The settings of a file. -/
def loadSettings (files : FileAccess m) (path : String) : m (Except Failure Settings) := do
  match ← files.readText path with
  | .error problem => return .error (.io path problem)
  | .ok text => return (Settings.parse text).mapError (Failure.settings path)

/-- The settings that hold in a folder: those of the nearest file on the way up, or the defaults. -/
def discoverSettings (files : FileAccess m) (folder : String) : m (Except Failure Settings) := do
  match ← findSettings files (selfAndParents folder) with
  | some path => loadSettings files path
  | none => return .ok {}

/-- The program of a model file. -/
def loadProgram (files : FileAccess m) (path : String) : m (Except Failure Program) := do
  match ← files.readText path with
  | .error problem => return .error (.io path problem)
  | .ok text => return parseProgram text path

/-- The program of several model files, with the units of all of them in order. -/
def loadPrograms (files : FileAccess m) : List String → m (Except Failure Program)
  | [] => return .ok {}
  | path :: rest => do
    match ← loadProgram files path with
    | .error failure => return .error failure
    | .ok program => return (← loadPrograms files rest).map program.merge

end OverrideCheck
