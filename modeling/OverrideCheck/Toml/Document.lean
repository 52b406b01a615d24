import OverrideCheck.Toml.Scalar
import OverrideCheck.Toml.Text

/-!
# Reading TOML documents

A document is a sequence of lines: headers, which begin a table, and entries, which are put into
the table of the last header. The table that is being filled is kept apart from the rest of the
document and joins it when the next header comes or the text ends.

* `value` — a value of any form, nested no deeper than `nestingLimit`;
* `Draft` — a document that is being read;
* `Draft.beginTable`, `Draft.beginItem` — headers in single and in double brackets;
* `Draft.addEntry` — an entry;
* `parse?` — the entries of a text, if it is a document.

Keys and tables may not be given twice. A table that is only on the way to others may be given a
header later, and takes the later place then.
-/

namespace OverrideCheck.Toml

/-- How deep values may be nested. -/
def nestingLimit : Nat := 79

/-- The rest of an array from the next item on; `value` reads an item. -/
def arrayItems (value : Scan Node) : Nat → Scan (List Node)
  | 0, _ => none
  | fuel + 1, c => do
    let c := gap c
    if c.startsWith [']'] then return ([], c.step)
    let (item, c) ← value c
    let c := gap c
    if c.startsWith [','] then
      let (items, c) ← arrayItems value fuel c.step
      return (item :: items, c)
    else
      let ((), c) ← takeText [']'] c
      return ([item], c)

/-- The rest of a table between braces from the next entry on. -/
def bracedEntries (value : Scan Node) : Nat → Entries → Scan Entries
  | 0, _, _ => none
  | fuel + 1, entries, c => do
    let ((path, key), c) ← dottedKey c
    let ((), c) ← takeText ['='] c
    let (node, c) ← value (spaces c)
    let entries ← insertDotted .bracedDotted path key node .braced entries
    let c := spaces c
    if c.startsWith [','] then bracedEntries value fuel entries c.step
    else
      let ((), c) ← takeText ['}'] c
      return (entries, c)

/-- A value with up to `depth` levels of arrays and tables. -/
def valueWithin : Nat → Scan Node
  | depth, c => do
    match ← c.next? with
    | '"' | '\'' =>
      let (text, stop) ← anyString c
      return (.string ⟨c.offset, stop.offset⟩ text, stop)
    | '[' =>
      match depth with
      | 0 => none
      | depth + 1 =>
        let (items, stop) ← arrayItems (valueWithin depth) c.rest.length c.step
        return (.array ⟨c.offset, stop.offset⟩ items, stop)
    | '{' =>
      match depth with
      | 0 => none
      | depth + 1 =>
        let inner := spaces c.step
        let (entries, stop) ←
          if inner.startsWith ['}'] then some (([] : Entries), inner.step)
          else bracedEntries (valueWithin depth) c.rest.length [] c.step
        return (.table .braced (some ⟨c.offset, stop.offset⟩) entries, stop)
    | _ => scalar c

/-- A value. -/
def value : Scan Node := valueWithin nestingLimit

/-! ### Documents -/

/-- A document that is being read: what is finished, and the table that is being filled. -/
structure Draft where
  root : Entries := []
  entries : Entries := []
  span? : Option ByteSpan := none
  /-- The path of the table that is being filled; the document itself has none. -/
  path? : Option (List Key × Key) := none
  /-- The table is an item of a name in double brackets. -/
  isItem : Bool := false

namespace Draft

/-- Works on the table in which a header's last part is put. -/
def atParent {α : Type} (d : Draft) (path : List Key) (f : Entries → Option (α × Entries)) :
    Option (α × Draft) := do
  let (a, root) ← updateAt false .implied (fun _ entries => f entries) path .header d.root
  return (a, { d with root })

/-- The bytes from the first to the last of some tables. -/
def spanOf (items : List Node) : Option ByteSpan := do
  return ⟨(← (← items.head?).span?).start, (← (← items.getLast?).span?).stop⟩

/-- Puts the table that is being filled into the document. -/
def close (d : Draft) : Option Draft :=
  match d.path? with
  | none => some { root := d.entries }
  | some (path, key) => do
    let table := Node.table .header d.span? d.entries
    let ((), closed) ← d.atParent path fun entries =>
      if d.isItem then
        match entries.get? key with
        | some (.tables _ items) =>
          let items := items ++ [table]
          some ((), entries.replace key (.tables (spanOf items) items))
        | _ => none
      else some ((), entries.push key table)
    return { root := closed.root }

/-- A header in single brackets. A table that was only implied so far goes on from what is in
it. -/
def beginTable (d : Draft) (path : List Key) (key : Key) (span : ByteSpan) : Option Draft := do
  let d ← d.close
  let (entries, d) ← d.atParent path fun entries =>
    match entries.get? key with
    | none => some ([], entries)
    | some (.table .implied _ inner) => some (inner, entries.erase key)
    | some _ => none
  return { d with entries, span? := some span, path? := some (path, key), isItem := false }

/-- A header in double brackets. -/
def beginItem (d : Draft) (path : List Key) (key : Key) (span : ByteSpan) : Option Draft := do
  let d ← d.close
  let ((), d) ← d.atParent path fun entries =>
    match entries.get? key with
    | none => some ((), entries.push key (.tables none []))
    | some (.tables _ _) => some ((), entries)
    | some _ => none
  return { d with entries := [], span? := some span, path? := some (path, key), isItem := true }

/-- An entry of the table that is being filled, which then reaches to the end of it. -/
def addEntry (d : Draft) (path : List Key) (key : Key) (node : Node) : Option Draft := do
  let entries ← insertDotted .dotted path key node .header d.entries
  let span? :=
    match d.span?, node.span? with
    | some span, some inner => some ⟨span.start, inner.stop⟩
    | span?, _ => span?
  return { d with entries, span? }

end Draft

/-- A header or an entry, and the line end after it. -/
def line (d : Draft) (c : Cursor) : Option (Draft × Cursor) := do
  if c.startsWith ['[', '['] then
    let ((path, key), stop) ← dottedKey (c.skip 2)
    let ((), stop) ← takeText [']', ']'] stop
    return (← d.beginItem path key ⟨c.offset, stop.offset⟩, ← lineEnd stop)
  else if c.startsWith ['['] then
    let ((path, key), stop) ← dottedKey c.step
    let ((), stop) ← takeText [']'] stop
    return (← d.beginTable path key ⟨c.offset, stop.offset⟩, ← lineEnd stop)
  else
    let ((path, key), c) ← dottedKey c
    let ((), c) ← takeText ['='] c
    let (node, c) ← value (spaces c)
    return (← d.addEntry path key node, ← lineEnd c)

/-- The lines of a document, of which there may be `fuel`. -/
def lines : Nat → Draft → Cursor → Option Draft
  | fuel, d, c =>
    let c := spaces c
    if c.rest.isEmpty then d.close
    else
      match fuel with
      | 0 => none
      | fuel + 1 =>
        if c.startsWith ['#'] || (newLine? c).isSome then do lines fuel d (← lineEnd c)
        else do
          let (d, c) ← line d c
          lines fuel d c

/-- The entries of a document; `none` if the text is none. A byte order mark at its start counts
for nothing. -/
def parse? (text : String) : Option Entries := do
  let start : Cursor := ⟨text.toList, 0⟩
  let start := if start.startsWith ['\ufeff'] then start.step else start
  return (← lines (start.rest.length + 1) {} start).root

end OverrideCheck.Toml
