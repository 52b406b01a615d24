import OverrideCheck.Json.Value
import OverrideCheck.Text.Quoted

/-!
# Events

What a run notes down about its own course. An event has a level, the part of the program it comes
from, a message and named values; events of the validation of a unit also bear that unit's path.

* `Level`, `FieldValue`, `Event` — events;
* `LogFormat` — the two ways of writing them, as lines of text and as JSON objects;
* `LogFilter` — which events are written;
* `Event.write` — an event as a format has it.
-/

namespace OverrideCheck

/-- How detailed an event is. -/
inductive Level
  | error
  | warn
  | info
  | debug
  | trace
deriving DecidableEq, Repr

namespace Level

/-- The levels from the least to the most detailed. -/
def all : List Level := [.error, .warn, .info, .debug, .trace]

/-- The place of a level among all. -/
def rank (l : Level) : Nat := all.idxOf l

/-- The word for a level. -/
def word : Level → String
  | .error => "ERROR"
  | .warn => "WARN"
  | .info => "INFO"
  | .debug => "DEBUG"
  | .trace => "TRACE"

end Level

/-- A value that is noted with an event. -/
inductive FieldValue
  /-- A text that is written as it is. -/
  | shown (text : String)
  /-- A text that is quoted in lines of text. -/
  | text (text : String)
  | number (n : Nat)
  | boolean (b : Bool)
deriving DecidableEq, Repr

/-- Something noted down. -/
structure Event where
  level : Level
  /-- The part of the program the event comes from. -/
  target : String
  message : String
  fields : List (String × FieldValue) := []
  /-- The path of the unit that is being validated. -/
  unit? : Option String := none
deriving DecidableEq, Repr

/-! ### Filters -/

/-- Which events are written: those of a target and the parts below it (of all targets, if none is
named) up to a level. -/
structure LogFilter where
  target : String
  /-- The number of levels written, from the least detailed on. -/
  levels : Nat
deriving DecidableEq, Repr

namespace LogFilter

/-- The number of levels that a word asks for. -/
def levels? (word : String) : Option Nat :=
  if word.toLower = "off" then some 0
  else (Level.all.find? fun l => l.word == word.toUpper).map fun l => l.rank + 1

/-- The filter of a text: a level, or a target and a level with an equals sign between them. A
target alone asks for everything. -/
def parse (text : String) : LogFilter :=
  let cs := text.toList
  let target := String.ofList (cs.takeWhile (· != '='))
  match cs.dropWhile (· != '=') with
  | [] =>
    match levels? text with
    | some levels => ⟨"", levels⟩
    | none => if text.isEmpty then ⟨"", 0⟩ else ⟨text, Level.all.length⟩
  | _ :: level => ⟨target, (levels? (String.ofList level)).getD 0⟩

/-- What comes from a target at a level is written. -/
def allows (f : LogFilter) (target : String) (level : Level) : Bool :=
  f.target.toList.isPrefixOf target.toList && level.rank < f.levels

end LogFilter

/-! ### Formats -/

/-- How events are written. -/
inductive LogFormat
  | text
  | json
deriving DecidableEq, Repr

/-- The format of a word: JSON if that is what it says in letters of either case. -/
def LogFormat.parse (word : String) : LogFormat :=
  if word.toLower = "json" then .json else .text

/-- A value in a line of text. -/
def FieldValue.lineText : FieldValue → String
  | .shown s => s
  | .text s => quoted s
  | .number n => Nat.repr n
  | .boolean b => Json.boolText b

/-- A value in a JSON object. -/
def FieldValue.toJson : FieldValue → Json.Value
  | .shown s => .string s
  | .text s => .string s
  | .number n => .integer n
  | .boolean b => .boolean b

namespace Event

/-- The name under which the validation of a unit is noted. -/
def unitScope : String := "validate_unit"

/-- An event as a line of text. -/
def lineText (e : Event) : String :=
  e.level.word ++ " " ++
    (match e.unit? with
      | some path => unitScope ++ "\x7bunit=" ++ path ++ "\x7d: "
      | none => "") ++
    e.target ++ ": " ++ e.message ++
    String.join (e.fields.map fun (name, value) => " " ++ name ++ "=" ++ value.lineText)

/-- An event as a JSON object. -/
def toJson (e : Event) : Json.Value :=
  let scope (path : String) : Json.Value :=
    .object [("unit", .string path), ("name", .string unitScope)]
  .object <|
    [("level", .string e.level.word),
      ("fields", .object <| ("message", .string e.message) ::
        e.fields.map fun (name, value) => (name, value.toJson)),
      ("target", .string e.target)] ++
    match e.unit? with
    | some path => [("span", scope path), ("spans", .array [scope path])]
    | none => []

/-- An event as it is written. -/
def write (e : Event) : LogFormat → String
  | .text => e.lineText
  | .json => e.toJson.compact

end Event

end OverrideCheck
