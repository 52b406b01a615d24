import OverrideCheck.Json.Token

/-!
# JSON documents

A document is the tree of a JSON text, as far as the text can be read: every value keeps the bytes
it covers, and a list or an object ends either at its closing bracket or at the breach where the
text breaks off. So one tree serves everyone who looks at the text from its start, and shows each
of them the first fault on their own way through it.

* `Document`, `Items`, `Members` — the tree;
* `Document.start?`, `Document.firstByte` — where a value begins;
* `Document.skipFault?` — the first fault for someone who skips the value;
* `Reading`, `Reading.ofText` — the tree of a text and what stands after it.

After every item, key and value a place is kept that is called *settled*: the place reached by
going on from there over blank characters, over the closing bracket if it comes next, and in a
list over a comma and the blank characters behind it. A complaint about a value that names no
place of its own is reported there.
-/

namespace OverrideCheck.Json

/-- The name of a member. -/
structure Key where
  text : Except Fault String
  /-- The place after its closing quote. -/
  stop : Nat
  settled : Nat

mutual

/-- A value of a JSON text. -/
inductive Document
  | string (start stop : Nat) (text : Except Fault String)
  | literal (start stop : Nat) (value : Except Fault Literal)
  /-- A string that breaks off. -/
  | cutString (start : Nat) (breach : Breach)
  /-- A word or a number that breaks off. -/
  | cutLiteral (start : Nat) (breach : Breach)
  | array (start : Nat) (items : Items)
  | object (start : Nat) (members : Members)
  /-- No value stands where one is needed. -/
  | absent (fault : Fault)

/-- The items of a list. -/
inductive Items
  /-- The list is closed by a bracket that ends at this place. -/
  | closed (stop : Nat)
  | broken (breach : Breach)
  | cons (item : Document) (settled : Nat) (rest : Items)

/-- The members of an object. -/
inductive Members
  /-- The object is closed by a bracket that ends at this place. -/
  | closed (stop : Nat)
  | broken (breach : Breach)
  | cons (key : Key) (value : Document) (settled : Nat) (rest : Members)

end

/-- The place after the first byte of a value, or the place of the fault if there is none. -/
def Document.firstByte : Document → Nat
  | .string start _ _ | .literal start _ _ | .cutString start _ | .cutLiteral start _
  | .array start _ | .object start _ => start + 1
  | .absent fault => fault.offset

mutual

/-- The first fault in a value for someone who skips it. -/
def Document.skipFault? : Document → Option Fault
  | .array _ items => items.skipFault?
  | .object _ members => members.skipFault?
  | .cutString _ breach | .cutLiteral _ breach => some breach.skip
  | .absent fault => some fault
  | .string .. | .literal .. => none

/-- The first fault in the rest of a list for someone who skips it. -/
def Items.skipFault? : Items → Option Fault
  | .closed _ => none
  | .broken breach => some breach.skip
  | .cons item _ rest => item.skipFault? <|> rest.skipFault?

/-- The first fault in the rest of an object for someone who skips it. -/
def Members.skipFault? : Members → Option Fault
  | .closed _ => none
  | .broken breach => some breach.skip
  | .cons _ value _ rest => value.skipFault? <|> rest.skipFault?

end

/-! ### Reading a document from its tokens -/

/-- The place where the next token begins, or where the tokens end. -/
def nextPlace (stop : Nat) : List Token → Nat
  | [] => stop
  | t :: _ => t.start

/-- The settled place of a list in front of the given tokens. -/
def settleInList (stop : Nat) : List Token → Nat
  | [] => stop
  | t :: rest =>
    match t.kind with
    | .closeArray => t.stop
    | .comma => nextPlace stop rest
    | _ => t.start

/-- The settled place of an object in front of the given tokens. -/
def settleInObject (stop : Nat) : List Token → Nat
  | [] => stop
  | t :: _ =>
    match t.kind with
    | .closeObject => t.stop
    | _ => t.start

/-- What is left of a list of tokens when no more than all of it was taken. -/
abbrev Remaining (tokens : List Token) := { rest : List Token // rest.length ≤ tokens.length }

/-- What is left of the tail of a list is left of the list. -/
def Remaining.ofTail {t : Token} {tokens : List Token} (r : Remaining tokens) :
    Remaining (t :: tokens) :=
  ⟨r.1, Nat.le_succ_of_le r.2⟩

mutual

/-- The value that the tokens begin with, and the tokens after it. The tokens end at `stop`. -/
def readValue (stop : Nat) (tokens : List Token) : Document × Remaining tokens :=
  match tokens with
  | [] => (.absent ⟨stop, .endInValue⟩, ⟨[], Nat.le_refl _⟩)
  | t :: rest =>
    match t.kind with
    | .string text => (.string t.start t.stop text, ⟨rest, Nat.le_succ _⟩)
    | .literal value => (.literal t.start t.stop value, ⟨rest, Nat.le_succ _⟩)
    | .cutString breach => (.cutString t.start breach, ⟨rest, Nat.le_succ _⟩)
    | .cutLiteral breach => (.cutLiteral t.start breach, ⟨rest, Nat.le_succ _⟩)
    | .openArray =>
      let (items, after) := readFirstItem stop rest
      (.array t.start items, after.ofTail)
    | .openObject =>
      let (members, after) := readFirstMember stop rest
      (.object t.start members, after.ofTail)
    | _ => (.absent ⟨t.start + 1, .expectedValue⟩, ⟨t :: rest, Nat.le_refl _⟩)
termination_by (tokens.length, 0)

/-- The items of a list, of which the opening bracket is taken. -/
def readFirstItem (stop : Nat) (tokens : List Token) : Items × Remaining tokens :=
  match tokens with
  | [] => (.broken (.both stop .endInList), ⟨[], Nat.le_refl _⟩)
  | t :: rest =>
    match t.kind with
    | .closeArray => (.closed t.stop, ⟨rest, Nat.le_succ _⟩)
    | _ => readItem stop (t :: rest)
termination_by (tokens.length, 2)

/-- The items of a list from the one that the tokens begin with. -/
def readItem (stop : Nat) (tokens : List Token) : Items × Remaining tokens :=
  match readValue stop tokens with
  | (.absent fault, after) => (.cons (.absent fault) fault.offset (.broken ⟨fault, fault⟩), after)
  | (item, ⟨[], h⟩) => (.cons item stop (.broken (.both stop .endInList)), ⟨[], h⟩)
  | (item, ⟨t :: rest, h⟩) =>
    let settled := settleInList stop (t :: rest)
    have hrest : rest.length < tokens.length := h
    match t.kind with
    | .closeArray => (.cons item settled (.closed t.stop), ⟨rest, Nat.le_of_lt hrest⟩)
    | .comma =>
      match rest with
      | [] => (.cons item settled (.broken (.both stop .endInValue)), ⟨[], Nat.zero_le _⟩)
      | next :: more =>
        match next.kind with
        | .closeArray =>
          let offset := next.start + 1
          (.cons item settled (.broken ⟨⟨offset, .trailingComma⟩, ⟨offset, .expectedValue⟩⟩),
            ⟨next :: more, Nat.le_of_lt hrest⟩)
        | _ =>
          let (items, after) := readItem stop (next :: more)
          (.cons item settled items, ⟨after.1, Nat.le_trans after.2 (Nat.le_of_lt hrest)⟩)
    | _ =>
      (.cons item settled (.broken (.both (t.start + 1) .expectedListCommaOrEnd)), ⟨t :: rest, h⟩)
termination_by (tokens.length, 1)

/-- The members of an object, of which the opening bracket is taken. -/
def readFirstMember (stop : Nat) (tokens : List Token) : Members × Remaining tokens :=
  match tokens with
  | [] => (.broken (.both stop .endInObject), ⟨[], Nat.le_refl _⟩)
  | t :: rest =>
    match t.kind with
    | .closeObject => (.closed t.stop, ⟨rest, Nat.le_succ _⟩)
    | .string key =>
      let (members, after) := readMember stop ⟨key, t.stop, settleInObject stop rest⟩ rest
      (members, after.ofTail)
    | .cutString breach => (.broken breach, ⟨rest, Nat.le_succ _⟩)
    | _ => (.broken (.both (t.start + 1) .keyMustBeString), ⟨rest, Nat.le_succ _⟩)
termination_by (tokens.length, 2)

/-- The members of an object from the one of which the key is taken. -/
def readMember (stop : Nat) (key : Key) (tokens : List Token) : Members × Remaining tokens :=
  match tokens with
  | [] =>
    let fault : Fault := ⟨stop, .endInObject⟩
    (.cons key (.absent fault) stop (.broken ⟨fault, fault⟩), ⟨[], Nat.le_refl _⟩)
  | colon :: tokens =>
    match colon.kind with
    | .colon =>
      match readValue stop tokens with
      | (.absent fault, after) =>
        (.cons key (.absent fault) fault.offset (.broken ⟨fault, fault⟩), after.ofTail)
      | (value, ⟨[], _⟩) =>
        (.cons key value stop (.broken (.both stop .endInObject)), ⟨[], Nat.zero_le _⟩)
      | (value, ⟨t :: rest, h⟩) =>
        let settled := settleInObject stop (t :: rest)
        have hrest : rest.length ≤ tokens.length := Nat.le_of_lt h
        match t.kind with
        | .closeObject =>
          (.cons key value settled (.closed t.stop), ⟨rest, Nat.le_succ_of_le hrest⟩)
        | .comma =>
          match rest with
          | [] =>
            (.cons key value settled (.broken ⟨⟨stop, .endInValue⟩, ⟨stop, .endInObject⟩⟩),
              ⟨[], Nat.zero_le _⟩)
          | next :: more =>
            have hmore : more.length ≤ tokens.length := Nat.le_of_succ_le hrest
            let offset := next.start + 1
            let broken (breach : Breach) : Members × Remaining (colon :: tokens) :=
              (.cons key value settled (.broken breach), ⟨more, Nat.le_succ_of_le hmore⟩)
            match next.kind with
            | .string nextKey =>
              let nextKey : Key := ⟨nextKey, next.stop, settleInObject stop more⟩
              let (members, after) := readMember stop nextKey more
              (.cons key value settled members,
                ⟨after.1, Nat.le_succ_of_le (Nat.le_trans after.2 hmore)⟩)
            | .cutString breach => broken breach
            | .closeObject =>
              broken ⟨⟨offset, .trailingComma⟩, ⟨offset, .keyMustBeString⟩⟩
            | _ => broken (.both offset .keyMustBeString)
        | _ =>
          (.cons key value settled (.broken (.both (t.start + 1) .expectedObjectCommaOrEnd)),
            ⟨rest, Nat.le_succ_of_le hrest⟩)
    | _ =>
      let fault : Fault := ⟨colon.start + 1, .expectedColon⟩
      (.cons key (.absent fault) fault.offset (.broken ⟨fault, fault⟩), ⟨tokens, Nat.le_succ _⟩)
termination_by (tokens.length, 1)

end

/-- A document and what stands in the text after it. -/
structure Reading where
  root : Document
  /-- The fault of text that goes on after the document. -/
  trailing : Option Fault

/-- The document of a text. -/
def Reading.ofText (text : String) : Reading :=
  let (tokens, stop) := tokenize text
  match readValue stop tokens with
  | (root, ⟨[], _⟩) => ⟨root, none⟩
  | (root, ⟨t :: _, _⟩) => ⟨root, some ⟨t.start + 1, .trailingCharacters⟩⟩

end OverrideCheck.Json
