import OverrideCheck.Json.Complaint

/-!
# Decoding documents

A decoder reads a document as a value of some type, or refuses it. Decoders look at a document
from its start and refuse it at the first thing that is wrong, be it a fault of the text or a
value of the wrong kind.

* `Decoder` — a decoder, told how many more containers may be opened;
* `decodeString`, `decodeBoolean`, `decodeInteger`, `decodeNull`, `decodeOption`, `decodeList` —
  decoders for plain values;
* `decodeVariant` — one of a fixed set of words;
* `Field`, `RecordFormat`, `decodeRecord` — records, written as objects or, position by position,
  as lists;
* `decodeText` — a decoder applied to a text.

No more than 127 containers may be open at once. Values of unknown fields, where those are
allowed, are skipped and may be nested at will.
-/

namespace OverrideCheck.Json

/-- A way of reading a document as a value, with the number of containers that may still be
opened, plus one. -/
abbrev Decoder (α : Type) := Nat → Document → Except Refusal α

/-- Opens a container that begins at `start`. -/
def enter (room start : Nat) : Except Refusal Nat :=
  match room with
  | room + 2 => .ok (room + 1)
  | _ => .error (.located (start + 1) (.fault .recursionLimit))

/-- Refuses a document that is of none of the kinds expected. -/
def refuse (expected : String) : Document → Refusal
  | .string _ stop (.ok text) => .located stop (.wrongKind (.string text) expected)
  | .string _ _ (.error fault) | .literal _ _ (.error fault) | .absent fault => .ofFault fault
  | .cutString _ breach | .cutLiteral _ breach => .ofFault breach.read
  | .literal _ stop (.ok value) => .located stop (.wrongKind value.found expected)
  | .array start _ => .located start (.wrongKind .list expected)
  | .object start _ => .located start (.wrongKind .object expected)

/-! ### Plain values -/

/-- A string. -/
def decodeString : Decoder String
  | _, .string _ _ (.ok text) => .ok text
  | _, d => .error (refuse "a string" d)

/-- A boolean. -/
def decodeBoolean : Decoder Bool
  | _, .literal _ _ (.ok (.boolean value)) => .ok value
  | _, d => .error (refuse "a boolean" d)

/-- An integer of a bounded range, which is called `expected` in complaints. -/
def decodeInteger (expected : String) (low high : Int) : Decoder Int
  | _, .literal _ stop (.ok (.number (.integer value))) =>
    if low ≤ value ∧ value ≤ high then .ok value
    else .error (.located stop (.outOfRange value expected))
  | _, d => .error (refuse expected d)

/-- A number of 32 bits. -/
def decodeUInt32 : Decoder UInt32 := fun room d =>
  (decodeInteger "u32" 0 (UInt32.size - 1 : Nat) room d).map fun value => UInt32.ofNat value.toNat

/-- A number of 64 bits with a sign. -/
def decodeInt64 : Decoder Int64 := fun room d =>
  (decodeInteger "i64" Int64.minValue.toInt Int64.maxValue.toInt room d).map Int64.ofInt

/-- A number of things, of 64 bits. -/
def decodeCount : Decoder Nat := fun room d =>
  (decodeInteger "usize" 0 (UInt64.size - 1 : Nat) room d).map Int.toNat

/-- The one value without content, written `null`. -/
def decodeNull : Decoder Unit
  | _, .literal _ _ (.ok .null) => .ok ()
  | _, d => .error (refuse "unit" d)

/-- A value or `null`. -/
def decodeOption {α : Type} (decode : Decoder α) : Decoder (Option α)
  | _, .literal _ _ (.ok .null) => .ok none
  | room, d => (decode room d).map some

/-- The items of a list. -/
def decodeItems {α : Type} (decode : Decoder α) (room : Nat) : Items → Except Refusal (List α)
  | .closed _ => .ok []
  | .broken breach => .error (.ofFault breach.read)
  | .cons item settled rest =>
    match decode room item with
    | .error refusal => .error (refusal.settle settled)
    | .ok value => (decodeItems decode room rest).map (value :: ·)

/-- A list. -/
def decodeList {α : Type} (decode : Decoder α) : Decoder (List α)
  | room, .array start items => do decodeItems decode (← enter room start) items
  | _, d => .error (refuse "a sequence" d)

/-! ### Variants -/

/-- The variant of a word among those listed. -/
def variantOf {α : Type} (variants : List (String × α)) (stop : Nat) (word : String) :
    Except Refusal α :=
  match variants.lookup word with
  | some variant => .ok variant
  | none => .error (.located stop (.unknownVariant word (variants.map Prod.fst)))

/-- Refuses a document that is not a variant, by its first byte unless it is a string. -/
def refuseVariant : Document → Refusal
  | .string _ _ (.error fault) | .absent fault => .ofFault fault
  | .cutString _ breach => .ofFault breach.read
  | d => .located d.firstByte (.fault .expectedValue)

/-- What follows the content of a variant written as an object: nothing but the closing bracket. -/
def closeVariant (settled : Nat) : Members → Except Refusal Unit
  | .closed _ => .ok ()
  | .broken ⟨⟨offset, .endInObject⟩, _⟩ => .error (.located offset (.fault .endInObject))
  | _ => .error (.located settled (.fault .expectedValue))

/-- A variant written as an object with one member. The member's name is the variant, and `content`
reads its value. -/
def decodeTagged {α β : Type} (variants : List (String × α)) (content : α → Decoder β) (room : Nat) :
    Members → Except Refusal β
  | .closed stop => .error (.located stop (.fault .expectedValue))
  | .broken breach => .error (.ofFault breach.read)
  | .cons ⟨.error fault, _, _⟩ .. => .error (.ofFault fault)
  | .cons ⟨.ok word, stop, _⟩ value settled rest => do
    let variant ← variantOf variants stop word
    let result ← content variant room value
    closeVariant settled rest
    return result

/-- One of a fixed set of words, written as a string or as an object with one member that is
`null`. -/
def decodeVariant {α : Type} (variants : List (String × α)) : Decoder α
  | _, .string _ stop (.ok word) => variantOf variants stop word
  | room, .object start members => do
    decodeTagged variants (fun variant room value => (decodeNull room value).map fun _ => variant)
      (← enter room start) members
  | _, d => .error (refuseVariant d)

/-! ### Records -/

/-- A field of a record that is put together in a draft of the type `σ`. -/
structure Field (σ : Type) where
  name : String
  isSet : σ → Bool
  read : Nat → Document → σ → Except Refusal σ

/-- How a record is written. -/
structure RecordFormat (σ α : Type) where
  /-- The name of the record in complaints. -/
  name : String
  fields : List (Field σ)
  /-- Members of other names are skipped. -/
  lenient : Bool
  start : σ
  /-- The record of a draft, or the name of the first field that has to be given and is not. -/
  finish : σ → Except String α

namespace RecordFormat

variable {σ α : Type}

/-- The names of the fields. -/
def fieldNames (f : RecordFormat σ α) : List String := f.fields.map (·.name)

/-- Reads the members of an object into a draft. -/
def readMembers (f : RecordFormat σ α) (room : Nat) : Members → σ → Except Refusal α
  | .closed stop, draft =>
    match f.finish draft with
    | .ok value => .ok value
    | .error name => .error (.located stop (.missingField name))
  | .broken breach, _ => .error (.ofFault breach.read)
  | .cons ⟨.error fault, _, _⟩ .., _ => .error (.ofFault fault)
  | .cons ⟨.ok key, _, keySettled⟩ value settled rest, draft =>
    match f.fields.find? fun field => field.name == key with
    | none =>
      if f.lenient then
        match value.skipFault? with
        | some fault => .error (.ofFault fault)
        | none => readMembers f room rest draft
      else .error (.located keySettled (.unknownField key f.fieldNames))
    | some field =>
      if field.isSet draft then .error (.located keySettled (.duplicateField key))
      else
        match field.read room value draft with
        | .error refusal => .error (refusal.settle settled)
        | .ok draft => readMembers f room rest draft

/-- The place at which a list goes on that should have ended. -/
def refuseRest : Items → Refusal
  | .closed stop => .located stop (.fault .trailingCharacters)
  | .broken breach =>
    match breach.read.cause with
    | .endInList | .trailingComma => .ofFault breach.read
    | _ => .located breach.read.offset (.fault .trailingCharacters)
  | .cons item _ _ => .located item.firstByte (.fault .trailingCharacters)

/-- Reads the items of a list into the fields of a draft, one after the other; `count` are read
already. -/
def readItems (f : RecordFormat σ α) (room : Nat) (count : Nat) :
    List (Field σ) → Items → σ → Except Refusal α
  | _, .closed stop, draft =>
    match f.finish draft with
    | .ok value => .ok value
    | .error _ =>
      let expected :=
        "struct " ++ f.name ++ " with " ++ Nat.repr f.fields.length ++
          (if f.fields.length = 1 then " element" else " elements")
      .error (.located stop (.tooShort (count + missing f draft) expected))
  | [], items, _ => .error (refuseRest items)
  | _ :: _, .broken breach, _ => .error (.ofFault breach.read)
  | field :: fields, .cons item settled rest, draft =>
    match field.read room item draft with
    | .error refusal => .error (refusal.settle settled)
    | .ok draft => readItems f room (count + 1) fields rest draft
where
  /-- How many of the fields not read yet come before the first one that has to be given. -/
  missing (f : RecordFormat σ α) (draft : σ) : Nat :=
    match f.finish draft with
    | .ok _ => 0
    | .error name => (f.fieldNames.drop count).findIdx (· == name)

end RecordFormat

/-- A record, written as an object or as a list. -/
def decodeRecord {σ α : Type} (f : RecordFormat σ α) : Decoder α
  | room, .object start members => do f.readMembers (← enter room start) members f.start
  | room, .array start items => do f.readItems (← enter room start) 0 f.fields items f.start
  | _, d => .error (refuse ("struct " ++ f.name) d)

/-! ### Texts -/

/-- The containers that may be open at once, plus one. -/
def containerRoom : Nat := 128

/-- Decodes a whole text; the wording of the refusal if there is one. -/
def decodeText {α : Type} (decode : Decoder α) (text : String) : Except String α :=
  let reading := Reading.ofText text
  match decode containerRoom reading.root with
  | .error refusal => .error (refusal.text text)
  | .ok value =>
    match reading.trailing with
    | some fault => .error ((Refusal.ofFault fault).text text)
    | none => .ok value

end OverrideCheck.Json
