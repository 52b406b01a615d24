import OverrideCheck.Settings.Basic
import OverrideCheck.Text.Blank
import OverrideCheck.Toml.Complaint
import OverrideCheck.Toml.Document

/-!
# Reading settings

A settings file is a TOML document with two tables, one for the annotation names and one for the
validation, in which everything may be left out. What is given is first taken as it stands
(`GivenSettings`) and then checked: no name of the family may be blank, and the two parameter
markers must differ, be they given or default.

* `GivenSettings` — what a file says;
* `decodeSettings` — the document as given settings;
* `SettingsProblem` — what may be wrong with a file;
* `Settings.ofGiven?` — given settings checked and completed with the defaults;
* `Settings.parse` — the settings of a text.

Keys are looked at in document order, and all of them before any name is checked.
-/

namespace OverrideCheck

open Toml (Node Entries Refusal)

/-- What a file says about the annotation names. -/
structure GivenNames where
  rebind : Option String := none
  typeParam : Option String := none
  rebindParam : Option String := none
  typeMember : Option String := none
  defaultType : Option String := none
deriving DecidableEq, Repr

/-- What a file says about the validation. -/
structure GivenValidation where
  unspecified : Option UnspecifiedPolicy := none
  parallel : Option Bool := none
deriving DecidableEq, Repr

/-- What a settings file says. -/
structure GivenSettings where
  names : Option GivenNames := none
  validation : Option GivenValidation := none
deriving DecidableEq, Repr

/-! ### From documents -/

/-- An entry of a record that is put together in a draft of the type `σ`. -/
structure Slot (σ : Type) where
  name : String
  read : Node → σ → Except Refusal σ

/-- A slot that is filled by a decoder. -/
def Slot.of {σ α : Type} (name : String) (set : σ → α → σ) (decode : Node → Except Refusal α) :
    Slot σ :=
  ⟨name, fun node draft => (decode node).map (set draft)⟩

/-- Refuses a value that is not of the kind expected. -/
def refuseNode {α : Type} (expected : String) (node : Node) : Except Refusal α :=
  .error ⟨node.span?, .wrongKind node.foundText expected⟩

/-- A string. -/
def decodeWord : Node → Except Refusal String
  | .string _ text => .ok text
  | node => refuseNode "a string" node

/-- A boolean. -/
def decodeFlag : Node → Except Refusal Bool
  | .boolean _ value => .ok value
  | node => refuseNode "a boolean" node

/-- Reads the entries of a table into a draft. A complaint without a place of its own is about the
value, or about the key of a value that was never written as such. -/
def decodeEntries {σ : Type} (slots : List (Slot σ)) : Entries → σ → Except Refusal σ
  | [], draft => .ok draft
  | (key, node) :: rest, draft =>
    match slots.find? fun slot => slot.name == key.text with
    | none => .error ⟨some key.span, .unknownField key.text (slots.map (·.name))⟩
    | some slot =>
      match slot.read node draft with
      | .error refusal => .error (refusal.settle (some (node.span?.getD key.span)))
      | .ok draft => decodeEntries slots rest draft

/-- Reads the items of an array into a draft, one slot after the other; `count` are filled
already. Items beyond the last slot are not looked at. -/
def decodePositions {σ : Type} (expected : String) (count : Nat) :
    List (Slot σ) → List Node → σ → Except Refusal σ
  | [], _, draft => .ok draft
  | _ :: _, [], _ => .error ⟨none, .tooShort count expected⟩
  | slot :: slots, node :: nodes, draft =>
    match slot.read node draft with
    | .error refusal => .error (refusal.settle node.span?)
    | .ok draft => decodePositions expected (count + 1) slots nodes draft

/-- The key under which a date or a time is passed on as a table. -/
def datetimeKey : String := "$__toml_private_datetime"

/-- A record of optional entries, written as a table or, slot by slot, as an array. -/
def decodeSlots {σ : Type} (name : String) (slots : List (Slot σ)) (start : σ) (node : Node) :
    Except Refusal σ :=
  let settled (result : Except Refusal σ) : Except Refusal σ :=
    result.mapError (Refusal.settle · node.span?)
  let expected := "struct " ++ name ++ " with " ++ Nat.repr slots.length ++ " elements"
  match node with
  | .table _ _ entries => settled (decodeEntries slots entries start)
  | .array _ items | .tables _ items => settled (decodePositions expected 0 slots items start)
  | .datetime span =>
    .error ⟨some span, .unknownField datetimeKey (slots.map (·.name))⟩
  | node => refuseNode ("struct " ++ name) node

/-- The policy of a word. -/
def policyOf (word : String) : Except Refusal UnspecifiedPolicy :=
  match UnspecifiedPolicy.all.find? fun policy => policy.word == word with
  | some policy => .ok policy
  | none => .error ⟨none, .unknownVariant word (UnspecifiedPolicy.all.map (·.word))⟩

/-- The content of a policy written as a table: nothing. -/
def decodeNoContent : Node → Except Refusal Unit
  | .tables span? items => if items.isEmpty then .ok () else .error ⟨span?, .notEmptyArray⟩
  | .array span items => if items.isEmpty then .ok () else .error ⟨some span, .notEmptyTable⟩
  | .table _ span? entries => if entries.isEmpty then .ok () else .error ⟨span?, .notEmptyTable⟩
  | node => .error ⟨node.span?, .notTable node.kindName⟩

/-- A policy: its word, or a table with the word as its only key and nothing in it. -/
def decodePolicy (node : Node) : Except Refusal UnspecifiedPolicy :=
  (match node with
    | .string _ word => policyOf word
    | .table _ span? [] => .error ⟨span?, .noEntry⟩
    | .table _ _ [(key, content)] => do
      let policy ← (policyOf key.text).mapError (Refusal.settle · (some key.span))
      decodeNoContent content
      return policy
    | .table _ span? _ => .error ⟨span?, .severalEntries⟩
    | node => .error ⟨node.span?, .notVariant⟩).mapError
    (Refusal.settle · node.span?)

/-- The table of annotation names. -/
def decodeNames : Node → Except Refusal GivenNames :=
  decodeSlots "TomlAnnotations" [
    .of "rebind" (fun draft v => { draft with rebind := some v }) decodeWord,
    .of "type_param" (fun draft v => { draft with typeParam := some v }) decodeWord,
    .of "rebind_param" (fun draft v => { draft with rebindParam := some v }) decodeWord,
    .of "type_member" (fun draft v => { draft with typeMember := some v }) decodeWord,
    .of "default_type" (fun draft v => { draft with defaultType := some v }) decodeWord] {}

/-- The table of the validation. -/
def decodeValidation : Node → Except Refusal GivenValidation :=
  decodeSlots "TomlValidation" [
    .of "unspecified" (fun draft v => { draft with unspecified := some v }) decodePolicy,
    .of "parallel" (fun draft v => { draft with parallel := some v }) decodeFlag] {}

/-- A settings document. -/
def decodeSettings (entries : Entries) : Except Refusal GivenSettings :=
  decodeEntries [
    .of "annotations" (fun draft v => { draft with names := some v }) decodeNames,
    .of "validation" (fun draft v => { draft with validation := some v }) decodeValidation]
    entries {}

/-! ### Checks -/

/-- What may be wrong with a settings file. -/
inductive SettingsProblem
  /-- The text is no TOML document. -/
  | notToml
  /-- The document does not say what it should; the text shows where. -/
  | refused (text : String)
  /-- A name of the annotation family is blank. -/
  | blankName (key : String)
  /-- The two parameter markers have this one name. -/
  | sameMarkers (name : String)
deriving DecidableEq, Repr

/-- The wording of a problem. -/
def SettingsProblem.message : SettingsProblem → String
  | .notToml => "invalid TOML document\n"
  | .refused text => text
  | .blankName key => "annotations." ++ key ++ " must not be empty"
  | .sameMarkers name =>
    "annotations.type_param and annotations.rebind_param are both '" ++ name ++ "'"

/-- A name that may be given, and must not be blank then. -/
def givenName (key : String) (given : Option String) (default : String) :
    Except SettingsProblem String :=
  match given with
  | none => .ok default
  | some name => if isBlankText name then .error (.blankName key) else .ok name

/-- Given names, with the defaults for those that are not given. -/
def AnnotationNames.ofGiven? (given : GivenNames) : Except SettingsProblem AnnotationNames := do
  let default : AnnotationNames := {}
  return {
    rebind := ← givenName "rebind" given.rebind default.rebind
    typeParam := ← givenName "type_param" given.typeParam default.typeParam
    rebindParam := ← givenName "rebind_param" given.rebindParam default.rebindParam
    typeMember := ← givenName "type_member" given.typeMember default.typeMember
    defaultType := given.defaultType }

namespace Settings

/-- Given settings, with the defaults for all that is not given. -/
def ofGiven? (given : GivenSettings) : Except SettingsProblem Settings := do
  let names ←
    match given.names with
    | none => pure {}
    | some names => AnnotationNames.ofGiven? names
  if names.typeParam = names.rebindParam then throw (.sameMarkers names.typeParam)
  let validation := given.validation.getD {}
  return {
    names
    unspecified := validation.unspecified.getD .allow
    parallel := validation.parallel.getD true }

/-- The settings of a text, or what is wrong with it. -/
def parse (text : String) : Except SettingsProblem Settings :=
  match Toml.parse? text with
  | none => .error .notToml
  | some entries =>
    match decodeSettings entries with
    | .error refusal => .error (.refused (refusal.text text))
    | .ok given => ofGiven? given

end Settings

end OverrideCheck
