/-!
# JSON values and their text

A JSON value as it is written out, without places in a text. Objects keep the order of their
members.

* `Value` — the values this library writes;
* `Value.compact`, `Value.pretty` — their text on one line, and over several lines with two blanks
  per level.

Only quotation marks, backslashes and control characters are escaped; every other character stands
for itself.
-/

namespace OverrideCheck.Json

/-- A JSON value to be written. Numbers are integers. -/
inductive Value
  | null
  | boolean (value : Bool)
  | integer (value : Int)
  | string (text : String)
  | array (items : List Value)
  | object (members : List (String × Value))
deriving Inhabited

/-- A character of a string. -/
def escapeChar (c : Char) : String :=
  match c with
  | '"' => "\\\""
  | '\\' => "\\\\"
  | '\x08' => "\\b"
  | '\x0c' => "\\f"
  | '\n' => "\\n"
  | '\r' => "\\r"
  | '\t' => "\\t"
  | c =>
    if c.toNat < 0x20 then
      "\\u00" ++ String.ofList [Nat.digitChar (c.toNat / 16), Nat.digitChar (c.toNat % 16)]
    else String.singleton c

/-- The text of a string. -/
def stringText (s : String) : String := "\"" ++ String.join (s.toList.map escapeChar) ++ "\""

/-- The text of a value without structure. -/
def boolText (b : Bool) : String := if b then "true" else "false"

mutual

/-- The text of a value on one line. -/
def Value.compact : Value → String
  | .null => "null"
  | .boolean value => boolText value
  | .integer value => toString value
  | .string text => stringText text
  | .array items => "[" ++ compactItems items ++ "]"
  | .object members => "\x7b" ++ compactMembers members ++ "\x7d"

/-- The items of a list on one line. -/
def compactItems : List Value → String
  | [] => ""
  | [item] => item.compact
  | item :: rest => item.compact ++ "," ++ compactItems rest

/-- The members of an object on one line. -/
def compactMembers : List (String × Value) → String
  | [] => ""
  | [(name, value)] => stringText name ++ ":" ++ value.compact
  | (name, value) :: rest => stringText name ++ ":" ++ value.compact ++ "," ++ compactMembers rest

end

/-- The start of a line at a level. -/
def newLine (level : Nat) : String := "\n" ++ String.ofList (List.replicate (2 * level) ' ')

mutual

/-- The text of a value over several lines, at a level. -/
def Value.prettyAt (level : Nat) : Value → String
  | .null => "null"
  | .boolean value => boolText value
  | .integer value => toString value
  | .string text => stringText text
  | .array [] => "[]"
  | .array (item :: rest) =>
    "[" ++ newLine (level + 1) ++ item.prettyAt (level + 1) ++ prettyItems (level + 1) rest ++
      newLine level ++ "]"
  | .object [] => "\x7b\x7d"
  | .object ((name, value) :: rest) =>
    "\x7b" ++ newLine (level + 1) ++ stringText name ++ ": " ++ value.prettyAt (level + 1) ++
      prettyMembers (level + 1) rest ++ newLine level ++ "\x7d"

/-- The items of a list after the first one. -/
def prettyItems (level : Nat) : List Value → String
  | [] => ""
  | item :: rest => "," ++ newLine level ++ item.prettyAt level ++ prettyItems level rest

/-- The members of an object after the first one. -/
def prettyMembers (level : Nat) : List (String × Value) → String
  | [] => ""
  | (name, value) :: rest =>
    "," ++ newLine level ++ stringText name ++ ": " ++ value.prettyAt level ++
      prettyMembers level rest

end

/-- The text of a value over several lines. -/
def Value.pretty (v : Value) : String := v.prettyAt 0

end OverrideCheck.Json
