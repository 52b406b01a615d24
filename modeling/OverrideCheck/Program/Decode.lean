import OverrideCheck.Json.Decode
import OverrideCheck.Program.Basic

/-!
# Reading declaration models

A declaration model is a JSON document. Each record of it has a fixed list of fields, may leave
out those that have a default, and may be written as a list of its fields in order. Records other
than positions and placed declarations take no unknown fields.

* `decodeProgram`, `decodeSourceUnit`, `decodeType`, `decodeMethod`, `decodeParam`, `decodeAnnotation` —
  decoders for the records of a model;
* `decodePosition`, `decodeLocated` — positions, and declarations with their positions;
* `decodeAnnotationValue`, `decodeMembers` — annotation values and tables of them;
* `Program.parse` — the program of a text.

Every record is put together in a draft, which holds what was read so far.
-/

namespace OverrideCheck

open Json

/-- A field that is set by a decoder. -/
def Json.Field.of {σ α : Type} (name : String) (get : σ → Option α) (set : σ → α → σ)
    (decode : Decoder α) : Field σ where
  name := name
  isSet draft := (get draft).isSome
  read room d draft := (decode room d).map (set draft)

/-- A field that has to be given. -/
def need {α : Type} (name : String) : Option α → Except String α
  | some value => .ok value
  | none => .error name

/-! ### Positions -/

/-- A position that is being read. -/
structure PositionDraft where
  line : Option UInt32 := none
  column : Option UInt32 := none

/-- A position; the column is the first one unless it is given. -/
def positionFormat : RecordFormat PositionDraft Position where
  name := "Span"
  fields := [
    .of "line" (·.line) (fun draft v => { draft with line := some v }) decodeUInt32,
    .of "column" (·.column) (fun draft v => { draft with column := some v }) decodeUInt32]
  lenient := true
  start := {}
  finish draft := do return ⟨← need "line" draft.line, draft.column.getD 1⟩

/-- A position. -/
def decodePosition : Decoder Position := decodeRecord positionFormat

/-- A placed declaration that is being read. -/
structure LocatedDraft (α : Type) where
  node : Option α := none
  position : Option Position := none

/-- A declaration and its position, of which neither may be left out. -/
def locatedFormat {α : Type} (decode : Decoder α) : RecordFormat (LocatedDraft α) (Located α) where
  name := "Spanned"
  fields := [
    .of "node" (·.node) (fun draft v => { draft with node := some v }) decode,
    .of "span" (·.position) (fun draft v => { draft with position := some v }) decodePosition]
  lenient := true
  start := {}
  finish draft := do return ⟨← need "node" draft.node, ← need "span" draft.position⟩

/-- A declaration and its position. -/
def decodeLocated {α : Type} (decode : Decoder α) : Decoder (Located α) :=
  decodeRecord (locatedFormat decode)

/-! ### Annotations -/

/-- A type as it is written. -/
def decodeWrittenType : Decoder WrittenType := fun room d => (decodeString room d).map (⟨·⟩)

/-- The kinds of annotation values. -/
inductive ValueKind
  | classLiteral
  | string
  | integer
  | boolean
  | array

/-- The words for the kinds of annotation values. -/
def valueKinds : List (String × ValueKind) :=
  [("class", .classLiteral), ("str", .string), ("int", .integer), ("bool", .boolean),
    ("array", .array)]

/-- A word that stands where an annotation value is needed: one of the kinds lacks its content, and
any other is no kind at all. -/
def refuseBareKind (stop : Nat) (word : String) : Refusal :=
  match variantOf valueKinds stop word with
  | .ok _ => ⟨none, .wrongKind .bareVariant "newtype variant"⟩
  | .error refusal => refusal

mutual

/-- An annotation value: an object with one member, whose name is the kind of the value. -/
def decodeAnnotationValue (room : Nat) : Document → Except Refusal AnnotationValue
  | .object start members => do decodeTaggedValue (← enter room start) members
  | .string _ stop (.ok word) => .error (refuseBareKind stop word)
  | d => .error (refuseVariant d)

/-- The one member of an annotation value. -/
def decodeTaggedValue (room : Nat) : Members → Except Refusal AnnotationValue
  | .closed stop => .error (.located stop (.fault .expectedValue))
  | .broken breach => .error (.ofFault breach.read)
  | .cons ⟨.error fault, _, _⟩ .. => .error (.ofFault fault)
  | .cons ⟨.ok word, stop, _⟩ value settled rest => do
    let kind ← variantOf valueKinds stop word
    let result ← decodeContent room kind value
    closeVariant settled rest
    return result

/-- The content of an annotation value of a given kind. -/
def decodeContent (room : Nat) (kind : ValueKind) : Document → Except Refusal AnnotationValue
  | .array start items =>
    match kind with
    | .array => do return .array (← decodeElements (← enter room start) items)
    | .classLiteral => .error (refuse "a string" (.array start items))
    | .string => .error (refuse "a string" (.array start items))
    | .integer => .error (refuse "i64" (.array start items))
    | .boolean => .error (refuse "a boolean" (.array start items))
  | d =>
    match kind with
    | .classLiteral => (decodeString room d).map .classLiteral
    | .string => (decodeString room d).map .string
    | .integer => (decodeInt64 room d).map .integer
    | .boolean => (decodeBoolean room d).map .boolean
    | .array => .error (refuse "a sequence" d)

/-- The elements of an array. -/
def decodeElements (room : Nat) : Items → Except Refusal (List AnnotationValue)
  | .closed _ => .ok []
  | .broken breach => .error (.ofFault breach.read)
  | .cons item settled rest =>
    match decodeAnnotationValue room item with
    | .error refusal => .error (refusal.settle settled)
    | .ok value => do return value :: (← decodeElements room rest)

end

/-- The members of an annotation, put into a table. -/
def decodeMembersInto (room : Nat) : Members → MemberTable → Except Refusal MemberTable
  | .closed _, table => .ok table
  | .broken breach, _ => .error (.ofFault breach.read)
  | .cons ⟨.error fault, _, _⟩ .., _ => .error (.ofFault fault)
  | .cons ⟨.ok name, _, _⟩ value settled rest, table =>
    match decodeAnnotationValue room value with
    | .error refusal => .error (refusal.settle settled)
    | .ok value => decodeMembersInto room rest (table.insert name value)

/-- The values of an annotation by member; of a repeated member the last value counts. -/
def decodeMembers : Decoder MemberTable
  | room, .object start members => do decodeMembersInto (← enter room start) members .empty
  | _, d => .error (refuse "a map" d)

/-- An annotation that is being read. -/
structure AnnotationDraft where
  name : Option String := none
  values : Option MemberTable := none

/-- A name and the values of its members, of which there may be none. -/
def annotationFormat : RecordFormat AnnotationDraft Annotation where
  name := "Annotation"
  fields := [
    .of "name" (·.name) (fun draft v => { draft with name := some v }) decodeString,
    .of "values" (·.values) (fun draft v => { draft with values := some v }) decodeMembers]
  lenient := false
  start := {}
  finish draft := do return ⟨← need "name" draft.name, draft.values.getD .empty⟩

/-- An annotation use. -/
def decodeAnnotation : Decoder Annotation := decodeRecord annotationFormat

/-! ### Declarations -/

/-- A parameter that is being read. -/
structure ParamDraft where
  name : Option String := none
  type : Option WrittenType := none
  annotations : Option (List Annotation) := none

/-- A name, a type and annotations, of which there may be none. -/
def paramFormat : RecordFormat ParamDraft Param where
  name := "Param"
  fields := [
    .of "name" (·.name) (fun draft v => { draft with name := some v }) decodeString,
    .of "ty" (·.type) (fun draft v => { draft with type := some v }) decodeWrittenType,
    .of "annotations" (·.annotations) (fun draft v => { draft with annotations := some v })
      (decodeList decodeAnnotation)]
  lenient := false
  start := {}
  finish draft := do
    return ⟨← need "name" draft.name, ← need "ty" draft.type, draft.annotations.getD []⟩

/-- A parameter. -/
def decodeParam : Decoder Param := decodeRecord paramFormat

/-- A method that is being read. -/
structure MethodDraft where
  name : Option String := none
  params : Option (List Param) := none
  returnType : Option WrittenType := none
  annotations : Option (List Annotation) := none

/-- A name; a method has no parameters, returns nothing and bears no annotations unless it is
said. -/
def methodFormat : RecordFormat MethodDraft MethodDecl where
  name := "MethodDecl"
  fields := [
    .of "name" (·.name) (fun draft v => { draft with name := some v }) decodeString,
    .of "params" (·.params) (fun draft v => { draft with params := some v })
      (decodeList decodeParam),
    .of "return_type" (·.returnType) (fun draft v => { draft with returnType := some v })
      decodeWrittenType,
    .of "annotations" (·.annotations) (fun draft v => { draft with annotations := some v })
      (decodeList decodeAnnotation)]
  lenient := false
  start := {}
  finish draft := do
    return ⟨← need "name" draft.name, draft.params.getD [], draft.returnType.getD .void,
      draft.annotations.getD []⟩

/-- A method. -/
def decodeMethod : Decoder MethodDecl := decodeRecord methodFormat

/-- The words for the kinds of types. -/
def typeKinds : List (String × TypeKind) :=
  [("class", .classKind), ("interface", .interfaceKind)]

/-- A type that is being read. -/
structure TypeDraft where
  name : Option String := none
  kind : Option TypeKind := none
  superclass : Option (Option String) := none
  interfaces : Option (List String) := none
  methods : Option (List (Located MethodDecl)) := none

/-- A name and a kind; a type has no supertypes and no methods unless it is said. -/
def typeFormat : RecordFormat TypeDraft TypeDecl where
  name := "TypeDecl"
  fields := [
    .of "name" (·.name) (fun draft v => { draft with name := some v }) decodeString,
    .of "kind" (·.kind) (fun draft v => { draft with kind := some v }) (decodeVariant typeKinds),
    .of "superclass" (·.superclass) (fun draft v => { draft with superclass := some v })
      (decodeOption decodeString),
    .of "interfaces" (·.interfaces) (fun draft v => { draft with interfaces := some v })
      (decodeList decodeString),
    .of "methods" (·.methods) (fun draft v => { draft with methods := some v })
      (decodeList (decodeLocated decodeMethod))]
  lenient := false
  start := {}
  finish draft := do
    return ⟨← need "name" draft.name, ← need "kind" draft.kind, draft.superclass.getD none,
      draft.interfaces.getD [], draft.methods.getD []⟩

/-- A type. -/
def decodeType : Decoder TypeDecl := decodeRecord typeFormat

/-- A unit that is being read. -/
structure UnitDraft where
  path : Option (Option String) := none
  types : Option (List (Located TypeDecl)) := none
  source : Option (Option String) := none

/-- A unit, of which everything may be left out. -/
def unitFormat : RecordFormat UnitDraft SourceUnit where
  name := "CompilationUnit"
  fields := [
    .of "path" (·.path) (fun draft v => { draft with path := some v })
      (decodeOption decodeString),
    .of "types" (·.types) (fun draft v => { draft with types := some v })
      (decodeList (decodeLocated decodeType)),
    .of "source" (·.source) (fun draft v => { draft with source := some v })
      (decodeOption decodeString)]
  lenient := false
  start := {}
  finish draft := .ok ⟨draft.path.getD none, draft.types.getD [], draft.source.getD none⟩

/-- A unit. -/
def decodeSourceUnit : Decoder SourceUnit := decodeRecord unitFormat

/-- A program that is being read. -/
structure ProgramDraft where
  units : Option (List SourceUnit) := none

/-- A program, which has no units unless it is said. -/
def programFormat : RecordFormat ProgramDraft Program where
  name := "Program"
  fields := [
    .of "units" (·.units) (fun draft v => { draft with units := some v })
      (decodeList decodeSourceUnit)]
  lenient := false
  start := {}
  finish draft := .ok ⟨draft.units.getD []⟩

/-- A program. -/
def decodeProgram : Decoder Program := decodeRecord programFormat

/-- The program of a declaration model, or why the text is none. -/
def Program.parse (text : String) : Except String Program := decodeText decodeProgram text

end OverrideCheck
