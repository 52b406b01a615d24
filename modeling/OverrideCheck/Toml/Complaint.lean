import OverrideCheck.Decimal.Layout
import OverrideCheck.Text.Quoted
import OverrideCheck.Toml.Node

/-!
# Complaints about TOML documents

Why a document does not say what it should: a key that nobody asked for, or a value of the wrong
kind. A complaint is told together with the line it is about, in which the bytes at fault are
marked.

* `Found` — what was found in the place of something else;
* `Complaint`, `Complaint.message` — the reasons and their wording;
* `Refusal`, `Refusal.text` — a complaint, its place, and the excerpt that shows it.

The excerpt shows one line. Marks are counted in bytes and columns in characters; what goes beyond
the line is not marked, and there is one mark at least.
-/

namespace OverrideCheck.Toml

/-- How it is told what a value is found to be. A date or a time counts as a table. -/
def Node.foundText : Node → String
  | .string _ text => "string " ++ quoted text
  | .integer _ value => "integer `" ++ toString value ++ "`"
  | .float _ value => "floating point `" ++ floatText .settings value ++ "`"
  | .boolean _ value => "boolean `" ++ (if value then "true" else "false") ++ "`"
  | .datetime _ => "map"
  | .array _ _ => "sequence"
  | .table _ _ _ => "map"
  | .tables _ _ => "sequence"

/-- The name of a value's kind. -/
def Node.kindName : Node → String
  | .string _ _ => "string"
  | .integer _ _ => "integer"
  | .float _ _ => "float"
  | .boolean _ _ => "boolean"
  | .datetime _ => "datetime"
  | .array _ _ => "array"
  | .table style _ _ => if style.isBraced then "inline table" else "table"
  | .tables _ _ => "array of tables"

/-- Why a document does not say what it should. -/
inductive Complaint
  | unknownField (name : String) (known : List String)
  | unknownVariant (name : String) (known : List String)
  | wrongKind (found expected : String)
  /-- A record written as an array has too few items. -/
  | tooShort (length : Nat) (expected : String)
  /-- A variant is written neither as a string nor as a table. -/
  | notVariant
  /-- A variant is written as a table without entries. -/
  | noEntry
  /-- A variant is written as a table of several entries. -/
  | severalEntries
  /-- A variant has content, which should be an empty array. -/
  | notEmptyArray
  /-- A variant has content, which should be an empty table. -/
  | notEmptyTable
  /-- A variant has content that is neither an array nor a table. -/
  | notTable (found : String)
deriving DecidableEq, Repr

/-- Names in the order given, as alternatives. -/
def alternatives : List String → String
  | [] => "there are none"
  | [a] => "expected `" ++ a ++ "`"
  | [a, b] => "expected `" ++ a ++ "` or `" ++ b ++ "`"
  | names => "expected one of " ++ String.intercalate ", " (names.map fun n => "`" ++ n ++ "`")

/-- The wording of a complaint. -/
def Complaint.message : Complaint → String
  | .unknownField name known => "unknown field `" ++ name ++ "`, " ++ alternatives known
  | .unknownVariant name known => "unknown variant `" ++ name ++ "`, " ++ alternatives known
  | .wrongKind found expected => "invalid type: " ++ found ++ ", expected " ++ expected
  | .tooShort length expected =>
    "invalid length " ++ Nat.repr length ++ ", expected " ++ expected
  | .notVariant => "wanted string or table"
  | .noEntry => "wanted exactly 1 element, found 0 elements"
  | .severalEntries => "wanted exactly 1 element, more than 1 element"
  | .notEmptyArray => "expected empty array"
  | .notEmptyTable => "expected empty table"
  | .notTable found => "expected table, found " ++ found

/-- A complaint and the bytes it is about, if it knows them. -/
structure Refusal where
  span? : Option ByteSpan
  complaint : Complaint
deriving DecidableEq, Repr

/-- Gives a refusal a place, unless it has one. -/
def Refusal.settle (r : Refusal) (span? : Option ByteSpan) : Refusal :=
  { r with span? := r.span? <|> span? }

/-! ### Excerpts -/

/-- The line in which a place `offset` bytes into a text lies: its number from zero, the number of
characters before the place, and the line; `done` are the characters of the line so far, last one
first. -/
def lineAt (number : Nat) (done : List Char) (offset : Nat) : List Char → Nat × Nat × String
  | [] => (number, done.length, String.ofList done.reverse)
  | c :: rest =>
    if offset = 0 then
      (number, done.length,
        String.ofList (done.reverse ++ (c :: rest).takeWhile (· != '\n')))
    else if c = '\n' then lineAt (number + 1) [] (offset - 1) rest
    else lineAt number (c :: done) (offset - c.utf8Size) rest

/-- A character repeated. -/
def repeated (n : Nat) (c : Char) : String := String.ofList (List.replicate n c)

/-- The place of a span, and the line it begins on with the span marked. -/
def excerpt (source : String) (span : ByteSpan) : String :=
  let (number, column, text) := lineAt 0 [] span.start source.toList
  let number := Nat.repr (number + 1)
  let margin := repeated (number.length + 1) ' ' ++ "|"
  let marks := max 1 (min (span.stop - span.start) (text.utf8ByteSize - column))
  "TOML parse error at line " ++ number ++ ", column " ++ Nat.repr (column + 1) ++ "\n" ++
    margin ++ "\n" ++
    number ++ " | " ++ text ++ "\n" ++
    margin ++ repeated (column + 1) ' ' ++ repeated marks '^' ++ "\n"

/-- The wording of a refusal, after the excerpt that shows it. -/
def Refusal.text (r : Refusal) (source : String) : String :=
  (match r.span? with
    | some span => excerpt source span
    | none => "") ++ r.complaint.message ++ "\n"

end OverrideCheck.Toml
