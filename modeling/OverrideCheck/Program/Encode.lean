import OverrideCheck.Json.Value
import OverrideCheck.Program.Basic

/-!
# Writing declaration models

The JSON value of a program and of its parts, with every field written: absent options are `null`
and empty lists are written out, so reading such a value leaves nothing to defaults.

* `Program.toJson` and its like for every record of a model.
-/

namespace OverrideCheck

open Json (Value)

/-- An option, `null` if there is nothing. -/
def Json.Value.ofOption {α : Type} (f : α → Value) : Option α → Value
  | none => .null
  | some a => f a

/-- A position. -/
def Position.toJson (p : Position) : Value :=
  .object [("line", .integer p.line.toNat), ("column", .integer p.column.toNat)]

/-- A declaration and its position. -/
def Located.toJson {α : Type} (f : α → Value) (l : Located α) : Value :=
  .object [("node", f l.node), ("span", l.position.toJson)]

mutual

/-- An annotation value: an object with one member, whose name is the kind of the value. -/
def AnnotationValue.toJson : AnnotationValue → Value
  | .classLiteral name => .object [("class", .string name)]
  | .string text => .object [("str", .string text)]
  | .integer value => .object [("int", .integer value.toInt)]
  | .boolean value => .object [("bool", .boolean value)]
  | .array elements => .object [("array", .array (AnnotationValue.listToJson elements))]

/-- The values of an array. -/
def AnnotationValue.listToJson : List AnnotationValue → List Value
  | [] => []
  | value :: rest => value.toJson :: AnnotationValue.listToJson rest

end

/-- A table of members, in ascending order. -/
def MemberTable.toJson (t : MemberTable) : Value :=
  .object (t.entries.map fun (name, value) => (name, value.toJson))

/-- An annotation use. -/
def Annotation.toJson (a : Annotation) : Value :=
  .object [("name", .string a.name), ("values", a.values.toJson)]

/-- A parameter. -/
def Param.toJson (p : Param) : Value :=
  .object [("name", .string p.name), ("ty", .string p.type.text),
    ("annotations", .array (p.annotations.map Annotation.toJson))]

/-- A method. -/
def MethodDecl.toJson (m : MethodDecl) : Value :=
  .object [("name", .string m.name), ("params", .array (m.params.map Param.toJson)),
    ("return_type", .string m.returnType.text),
    ("annotations", .array (m.annotations.map Annotation.toJson))]

/-- The word for a kind of type. -/
def TypeKind.word : TypeKind → String
  | .classKind => "class"
  | .interfaceKind => "interface"

/-- A type. -/
def TypeDecl.toJson (t : TypeDecl) : Value :=
  .object [("name", .string t.name), ("kind", .string t.kind.word),
    ("superclass", .ofOption .string t.superclass),
    ("interfaces", .array (t.interfaces.map .string)),
    ("methods", .array (t.methods.map (Located.toJson MethodDecl.toJson)))]

/-- A unit. -/
def SourceUnit.toJson (u : SourceUnit) : Value :=
  .object [("path", .ofOption .string u.path?),
    ("types", .array (u.types.map (Located.toJson TypeDecl.toJson))),
    ("source", .ofOption .string u.source?)]

/-- A program. -/
def Program.toJson (p : Program) : Value :=
  .object [("units", .array (p.units.map SourceUnit.toJson))]

end OverrideCheck
