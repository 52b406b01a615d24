import OverrideCheck.Cli.Run

/-!
# The program

Runs the command line in the surroundings of the process and writes out what the run leaves.
-/

namespace OverrideCheck

/-- The number of the problem that something on the way to a file is no folder. -/
def noFolderCode : UInt32 := 20

/-- The problem with a file or a folder that the system reports. The system's numbers come with either sign. -/
def problemOfError : IO.Error → IoProblem
  | .noFileOrDirectory _ _ _ => .notFound
  | .inappropriateType _ code _ =>
    if code = noFolderCode || -code = noFolderCode then .notInFolder else .isDirectory
  | .permissionDenied _ _ _ => .accessDenied
  | other => .other (toString other)

/-- The text of a file. -/
def readTextFile (path : String) : IO (Except IoProblem String) := do
  try
    match String.fromUTF8? (← IO.FS.readBinFile path) with
    | some text => return .ok text
    | none => return .error .notText
  catch e => return .error (problemOfError e)

/-- A path can be opened, or is there and may not be. -/
def canBeOpened (path : String) : IO Bool := do
  try
    let _ ← IO.FS.Handle.mk path .read
    return true
  catch
    | .permissionDenied _ _ _ => return true
    | _ => return false

/-- A path is there and can be read from, as a folder cannot. -/
def holdsText (path : String) : IO Bool := do
  try
    let file ← IO.FS.Handle.mk path .read
    let _ ← file.read 1
    return true
  catch
    | .permissionDenied _ _ _ => return true
    | _ => return false

/-- The files of the system. -/
def systemFiles : FileAccess IO := ⟨readTextFile, holdsText, canBeOpened⟩

/-- The folder this process is in. -/
def currentFolder : IO (Except IoProblem String) := do
  try
    return .ok (← IO.currentDir).toString
  catch e => return .error (problemOfError e)

/-- The surroundings of this process. -/
def processSurroundings : IO (Surroundings IO) := do
  let names := Log.filterVariables ++ [Log.formatVariable]
  let values ← names.mapM fun name => return (name, ← IO.getEnv name)
  return {
    files := systemFiles
    folder := currentFolder
    log? := Log.ofVariables? fun name => (values.lookup name).join
    colour := ← (← IO.getStderr).isTty }

end OverrideCheck

open OverrideCheck in
/-- Runs a command line. -/
def main (arguments : List String) : IO UInt32 := do
  let surroundings ← processSurroundings
  let (outcome, events) ← run surroundings arguments
  match surroundings.log? with
  | none => pure ()
  | some log => events.forM fun e => IO.eprintln (e.write log.format)
  IO.print outcome.output
  IO.eprint outcome.remarks
  return outcome.exitCode.toUInt32
