/-!
# Command line arguments

The words of a command line are read one by one into arguments (`Argument.ofWords`), and these into
a request (`Request.ofArguments`). The first word that has no place where it stands settles the
matter, and so does a question for the version.

* `Argument` — what a word or two stand for;
* `Request` — what a command line asks for;
* `UsageProblem` — why it asks for nothing that can be done;
* `Request.parse` — from words to requests.

The settings file may be named before the command and after it; what stands after it counts. After
two hyphens that stand alone, every word is a file.
-/

namespace OverrideCheck

/-- What can be switched on for a check. -/
inductive CheckFlag
  | serial
  | plain
  | json
deriving DecidableEq, Repr

/-- The word that switches a flag on. -/
def CheckFlag.word : CheckFlag → String
  | .serial => "--serial"
  | .plain => "--plain"
  | .json => "--json"

/-- All flags. -/
def CheckFlag.all : List CheckFlag := [.serial, .plain, .json]

/-- What a word of the command line stands for. -/
inductive Argument
  /-- Names the settings file; takes a word of its own. -/
  | config (path : String)
  | configWithoutPath
  | version
  | switch (flag : CheckFlag)
  /-- A command or a file. -/
  | plain (word : String)
  /-- A word after two hyphens that stand alone. -/
  | file (word : String)
  | unknown (word : String)
deriving DecidableEq, Repr

/-- The word that names the settings file. -/
def configWord : String := "--config"

namespace Argument

/-- A word begins like an option. A single hyphen does not. -/
def looksLikeOption (word : String) : Bool :=
  word != "-" && word.toList.head? = some '-'

/-- A word that stands for itself. -/
def ofWord (word : String) : Argument :=
  let cs := word.toList
  let assignment := (configWord ++ "=").toList
  if assignment.isPrefixOf cs then
    match cs.drop assignment.length with
    | [] => .configWithoutPath
    | path => .config (String.ofList path)
  else if word = "--version" || "-V".toList.isPrefixOf cs then .version
  else
    match CheckFlag.all.find? fun flag => flag.word == word with
    | some flag => .switch flag
    | none => if looksLikeOption word then .unknown word else .plain word

/-- The arguments of a command line. -/
def ofWords : List String → List Argument
  | [] => []
  | word :: rest =>
    if word = "--" then rest.map .file
    else if word = configWord then
      match rest with
      | [] => [.configWithoutPath]
      | path :: rest =>
        if path.isEmpty || looksLikeOption path then [.configWithoutPath]
        else .config path :: ofWords rest
    else ofWord word :: ofWords rest

/-- An argument as it was written. -/
def text : Argument → String
  | .config path => configWord ++ " " ++ path
  | .configWithoutPath => configWord
  | .version => "--version"
  | .switch flag => flag.word
  | .plain word => word
  | .file word => word
  | .unknown word => word

end Argument

/-- What is to be done. -/
inductive Command
  /-- Checks the program of the given model files. -/
  | check (files : List String) (flags : List CheckFlag)
  /-- Lists the contracts of the program of the given model files. -/
  | contracts (files : List String)
deriving DecidableEq, Repr

/-- What a command line asks for. -/
inductive Request
  | version
  /-- Something is to be done, under the settings of a file if one is named. -/
  | run (config? : Option String) (command : Command)
deriving DecidableEq, Repr

/-- Why a command line asks for nothing that can be done. -/
inductive UsageProblem
  | noCommand
  | noFile
  | configWithoutPath
  | unexpected (argument : String)
  | repeated (argument : String)
deriving DecidableEq, Repr

/-- The wording of a problem with the command line. -/
def UsageProblem.message : UsageProblem → String
  | .noCommand => "no command is given: 'check' or 'contracts' is expected"
  | .noFile => "no model file is given"
  | .configWithoutPath => "'" ++ configWord ++ "' needs a path"
  | .unexpected argument => "'" ++ argument ++ "' is not expected here"
  | .repeated argument => "'" ++ argument ++ "' is given more than once"

/-- What was read after a command so far. -/
structure CommandDraft where
  config? : Option String := none
  flags : List CheckFlag := []
  files : List String := []

namespace CommandDraft

/-- One more argument of a command that takes the given flags. -/
def add (allowed : List CheckFlag) (d : CommandDraft) (a : Argument) :
    Except UsageProblem CommandDraft :=
  match a with
  | .config path =>
    if d.config?.isSome then .error (.repeated configWord) else .ok { d with config? := some path }
  | .configWithoutPath => .error .configWithoutPath
  | .switch flag =>
    if flag ∉ allowed then .error (.unexpected a.text)
    else if flag ∈ d.flags then .error (.repeated a.text)
    else .ok { d with flags := d.flags ++ [flag] }
  | .plain word | .file word =>
    if word.isEmpty then .error (.unexpected word) else .ok { d with files := d.files ++ [word] }
  | .version | .unknown _ => .error (.unexpected a.text)

/-- What was read after a command that takes the given flags. There is a file at least. -/
def ofArguments (allowed : List CheckFlag) (arguments : List Argument) :
    Except UsageProblem CommandDraft := do
  let draft ← arguments.foldlM (add allowed) {}
  if draft.files.isEmpty then .error .noFile else .ok draft

end CommandDraft

namespace Request

/-- The request of the arguments that are left, with the settings file named so far. -/
def ofArgumentsFrom (config? : Option String) : List Argument → Except UsageProblem Request
  | [] => .error .noCommand
  | .config path :: rest =>
    if config?.isSome then .error (.repeated configWord) else ofArgumentsFrom (some path) rest
  | .configWithoutPath :: _ => .error .configWithoutPath
  | .version :: _ => .ok .version
  | .plain "check" :: rest => do
    let draft ← CommandDraft.ofArguments CheckFlag.all rest
    return .run (draft.config? <|> config?) (.check draft.files draft.flags)
  | .plain "contracts" :: rest => do
    let draft ← CommandDraft.ofArguments [] rest
    return .run (draft.config? <|> config?) (.contracts draft.files)
  | a :: _ => .error (.unexpected a.text)

/-- The request of a command line. -/
def ofArguments (arguments : List Argument) : Except UsageProblem Request :=
  ofArgumentsFrom none arguments

/-- The request of the words of a command line. -/
def parse (words : List String) : Except UsageProblem Request := ofArguments (Argument.ofWords words)

end Request

end OverrideCheck
