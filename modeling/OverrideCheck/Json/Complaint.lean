import OverrideCheck.Decimal.Layout
import OverrideCheck.Json.Document
import OverrideCheck.Text.Quoted

/-!
# Complaints about documents

Why a document does not stand for what it is read as: the text is faulty, or a value is of the
wrong kind, or a record has the wrong fields. A complaint may or may not know its place; one that
does not is given the settled place of the value it is about, by the container of that value.

* `Found` — what was found in the place of something else;
* `Complaint`, `Complaint.message` — the reasons and their wording;
* `Refusal` — a complaint and its place, if it has one;
* `Refusal.text` — the wording with line and column.
-/

namespace OverrideCheck.Json

/-- What was found in the place of something else. -/
inductive Found
  | null
  | boolean (value : Bool)
  | integer (value : Int)
  | double (value : Float)
  | string (text : String)
  | list
  | object
  /-- A variant without content. -/
  | bareVariant

/-- How it is told what was found. -/
def Found.text : Found → String
  | .null => "null"
  | .boolean value => "boolean `" ++ (if value then "true" else "false") ++ "`"
  | .integer value => "integer `" ++ toString value ++ "`"
  | .double value => "floating point `" ++ floatText .model value ++ "`"
  | .string text => "string " ++ quoted text
  | .list => "sequence"
  | .object => "map"
  | .bareVariant => "unit variant"

/-- What a literal is found to be. -/
def Literal.found : Literal → Found
  | .null => .null
  | .boolean value => .boolean value
  | .number (.integer value) => .integer value
  | .number (.double value) => .double value

/-- Why a document does not stand for what it is read as. -/
inductive Complaint
  | fault (cause : FaultCause)
  | wrongKind (found : Found) (expected : String)
  | outOfRange (value : Int) (expected : String)
  | missingField (name : String)
  | unknownField (name : String) (known : List String)
  | duplicateField (name : String)
  | unknownVariant (name : String) (known : List String)
  /-- A record written as a list has too few items. -/
  | tooShort (length : Nat) (expected : String)

/-- Names in the order given, as alternatives. -/
def alternatives : List String → String
  | [] => "there are none"
  | [a] => "expected `" ++ a ++ "`"
  | [a, b] => "expected `" ++ a ++ "` or `" ++ b ++ "`"
  | names => "expected one of " ++ String.intercalate ", " (names.map fun n => "`" ++ n ++ "`")

/-- The wording of a complaint. -/
def Complaint.message : Complaint → String
  | .fault cause => cause.message
  | .wrongKind found expected => "invalid type: " ++ found.text ++ ", expected " ++ expected
  | .outOfRange value expected =>
    "invalid value: " ++ (Found.integer value).text ++ ", expected " ++ expected
  | .missingField name => "missing field `" ++ name ++ "`"
  | .unknownField name known => "unknown field `" ++ name ++ "`, " ++ alternatives known
  | .duplicateField name => "duplicate field `" ++ name ++ "`"
  | .unknownVariant name known => "unknown variant `" ++ name ++ "`, " ++ alternatives known
  | .tooShort length expected =>
    "invalid length " ++ Nat.repr length ++ ", expected " ++ expected

/-- A complaint and its place in the text, if it has one. -/
structure Refusal where
  offset? : Option Nat
  complaint : Complaint

namespace Refusal

/-- A complaint about a place. -/
def located (offset : Nat) (complaint : Complaint) : Refusal := ⟨some offset, complaint⟩

/-- A fault of the text. -/
def ofFault (f : Fault) : Refusal := .located f.offset (.fault f.cause)

/-- Gives a refusal a place, unless it has one. -/
def settle (r : Refusal) (offset : Nat) : Refusal :=
  { r with offset? := some (r.offset?.getD offset) }

/-- The wording of a refusal of the given text. -/
def text (r : Refusal) (source : String) : String :=
  match r.offset? with
  | none => r.complaint.message
  | some offset =>
    let (line, column) := lineAndColumn source offset
    r.complaint.message ++ " at line " ++ Nat.repr line ++ " column " ++ Nat.repr column

end Refusal

end OverrideCheck.Json
