/-!
# TOML documents

The tree of a TOML document. Every value keeps the bytes it was written in; a table that was never
written as such, because a longer header or a dotted key implies it, has none.

* `ByteSpan` — a range of bytes;
* `TableStyle` — how a table came about, which decides what may still be added to it;
* `Key`, `Node` — keys and values;
* `updateAt` — an operation on the table at the end of a path, with the tables on the way made up
  as they are needed;
* `insertDotted` — a value put under a dotted key.

A table's entries are kept in the order in which they were first mentioned.
-/

namespace OverrideCheck.Toml

/-- The bytes from `start` up to but not including `stop`. -/
structure ByteSpan where
  start : Nat
  stop : Nat
deriving DecidableEq, Repr

/-- How a table came about. -/
inductive TableStyle
  /-- It has a header of its own, or is the document itself. -/
  | header
  /-- It is on the way to a table that has a header. -/
  | implied
  /-- It is on the way of a dotted key. -/
  | dotted
  /-- It is written between braces. -/
  | braced
  /-- It is on the way of a dotted key between braces. -/
  | bracedDotted
deriving DecidableEq, Repr

namespace TableStyle

/-- The table was not written as such. -/
def isImplicit : TableStyle → Bool
  | .implied | .dotted | .bracedDotted => true
  | .header | .braced => false

/-- The table comes from a dotted key. -/
def isDotted : TableStyle → Bool
  | .dotted | .bracedDotted => true
  | .header | .implied | .braced => false

/-- The table is part of a value. -/
def isBraced : TableStyle → Bool
  | .braced | .bracedDotted => true
  | .header | .implied | .dotted => false

end TableStyle

/-- A key, or one part of a dotted key. -/
structure Key where
  text : String
  span : ByteSpan
deriving DecidableEq, Repr

/-- A value of a document. -/
inductive Node
  | string (span : ByteSpan) (text : String)
  | integer (span : ByteSpan) (value : Int)
  | float (span : ByteSpan) (value : Float)
  | boolean (span : ByteSpan) (value : Bool)
  | datetime (span : ByteSpan)
  | array (span : ByteSpan) (items : List Node)
  | table (style : TableStyle) (span? : Option ByteSpan) (entries : List (Key × Node))
  /-- The tables of a name that is written in double brackets. -/
  | tables (span? : Option ByteSpan) (items : List Node)

/-- The entries of a table. -/
abbrev Entries := List (Key × Node)

/-- The bytes a value is written in, if it is written as such. -/
def Node.span? : Node → Option ByteSpan
  | .string span _ | .integer span _ | .float span _ | .boolean span _ | .datetime span
  | .array span _ => some span
  | .table _ span? _ | .tables span? _ => span?

namespace Entries

/-- The value of a key. -/
def get? (entries : Entries) (key : Key) : Option Node :=
  (entries.find? fun entry => entry.1.text == key.text).map Prod.snd

/-- The entries with another value for a key that is there. -/
def replace (entries : Entries) (key : Key) (node : Node) : Entries :=
  entries.map fun entry => if entry.1.text == key.text then (entry.1, node) else entry

/-- The entries with one more at the end. -/
def push (entries : Entries) (key : Key) (node : Node) : Entries := entries ++ [(key, node)]

/-- The entries without a key. -/
def erase (entries : Entries) (key : Key) : Entries :=
  entries.filter fun entry => entry.1.text != key.text

end Entries

/-- Applies an operation to the table at the end of a path, which may refuse it. Tables that are
missing on the way are made up in the style `missing`; on the way through a name in double brackets
the last table counts. A path may not lead through a value, nor a dotted key (`closed`) into a table
that was written as such. -/
def updateAt {α : Type} (closed : Bool) (missing : TableStyle)
    (f : TableStyle → Entries → Option (α × Entries)) :
    List Key → TableStyle → Entries → Option (α × Entries)
  | [], style, entries => f style entries
  | key :: path, _, entries =>
    match entries.get? key with
    | none => do
      let (a, inner) ← updateAt closed missing f path missing []
      return (a, entries.push key (.table missing none inner))
    | some (.table style span? inner) =>
      if (closed && !style.isImplicit) || (style.isBraced && !missing.isBraced) then none
      else do
        let (a, inner) ← updateAt closed missing f path style inner
        return (a, entries.replace key (.table style span? inner))
    | some (.tables span? items) =>
      match items.getLast? with
      | some (.table style tableSpan? inner) => do
        let (a, inner) ← updateAt closed missing f path style inner
        let items := items.dropLast ++ [.table style tableSpan? inner]
        return (a, entries.replace key (.tables span? items))
      | _ => none
    | some _ => none

/-- Puts a value under a dotted key. The last part may not be taken, and a dotted key may add to a
table only if that table comes from a dotted key itself. -/
def insertDotted (missing : TableStyle) (path : List Key) (key : Key) (node : Node)
    (style : TableStyle) (entries : Entries) : Option Entries :=
  (updateAt true missing (fun style entries =>
    if style.isDotted == path.isEmpty || (entries.get? key).isSome then none
    else some ((), entries.push key node)) path style entries).map Prod.snd

end OverrideCheck.Toml
