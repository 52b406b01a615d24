import Mathlib.Logic.Relation
import OverrideCheck.Check
import OverrideCheck.Proofs.Json.Schema
import OverrideCheck.Proofs.Program.Regular

/-!
# Edits of declaration models

A declaration model can be written in many ways that say the same. This module says in which ways
it can be edited, at any depth, without becoming another model, and which edits make it none.

* `programSchema` and the schemas it is made of — which fields a model may leave out and what each
  of them is taken for, and which records pass over members they do not know;
* `describes_program` — the decoder of models keeps this schema;
* `Tree.Retold` — one step from a document to another that says the same;
* `parseProgram_retold` — an accepted text may be retold in any number of steps and is refused if a
  strict record of it is given a member of an unknown name.

A default that is a list opens a container of its own. It always may, since models are only so deep:
of the 128 levels that there is room for, at most 15 lie above the values of an annotation.
-/

namespace OverrideCheck

open Json

/-! ### What models are made of -/

/-- A position. -/
def positionSchema : Schema :=
  .record true [("line", .leaf, none),
    ("column", .leaf, some (.literal (some (.number (.integer 1)))))]

/-- A declaration and its position. -/
def locatedSchema (node : Schema) : Schema :=
  .record true [("node", node, none), ("span", positionSchema, none)]

def annotationSchema : Schema :=
  .record false [("name", .leaf, none), ("values", .leaf, some (.object []))]

def paramSchema : Schema :=
  .record false [("name", .leaf, none), ("ty", .leaf, none),
    ("annotations", .list annotationSchema, some (.array []))]

def methodSchema : Schema :=
  .record false [("name", .leaf, none), ("params", .list paramSchema, some (.array [])),
    ("return_type", .leaf, some (.string (some "void"))),
    ("annotations", .list annotationSchema, some (.array []))]

def typeSchema : Schema :=
  .record false [("name", .leaf, none), ("kind", .leaf, none),
    ("superclass", .leaf, some (.literal (some .null))), ("interfaces", .leaf, some (.array [])),
    ("methods", .list (locatedSchema methodSchema), some (.array []))]

def unitSchema : Schema :=
  .record false [("path", .leaf, some (.literal (some .null))),
    ("types", .list (locatedSchema typeSchema), some (.array [])),
    ("source", .leaf, some (.literal (some .null)))]

def programSchema : Schema := .record false [("units", .list unitSchema, some (.array []))]

/-! ### What the decoders keep -/

section

variable {σ α β : Type} {room : Nat} {f : RecordFormat σ β} {s : Schema} {decode : Decoder α}
  {name : String} {get : σ → Option α} {set : σ → α → σ}

theorem holds_meaning_of (h : s.Describes room decode) {effect : Effect} {t t' : Tree}
    (ht : s.Edited effect t t') (draft : σ) :
    effect.Holds ((Field.of name get set decode).meaning room t draft)
      ((Field.of name get set decode).meaning room t' draft) := by
  simp only [meaning_of, Option.map_eq_bind]
  exact (h _ _ _ ht).bind _

/-- A field that has to be given. -/
theorem Json.Schema.Fits.required (h : s.Describes room decode) :
    Schema.Fits room f (.of name get set decode) (name, s, none) where
  name := rfl
  edited := holds_meaning_of h
  default := nofun

/-- A field that may be left out: the same is made of its default as of nothing. -/
theorem Json.Schema.Fits.optional {default : Tree} {a : α} (h : s.Describes room decode)
    (hdefault : decode.meaning room default = some a)
    (hresult : ∀ draft, get draft = none → f.result (set draft a) = f.result draft) :
    Schema.Fits room f (.of name get set decode) (name, s, some default) where
  name := rfl
  edited := holds_meaning_of h
  default := by
    intro t ht draft hunset
    cases ht
    simp only [meaning_of, hdefault, Option.map_some, Option.bind_some]
    exact hresult draft (Option.not_isSome_iff_eq_none.1 (Bool.not_eq_true _ ▸ hunset))

end

/-! Each decoder is described with as much room as its own records and defaults take. -/

theorem describes_position (room : Nat) : positionSchema.Describes (room + 3) decodePosition := by
  refine describes_record tidy_position rfl
    (.cons (.required describes_leaf) (.cons (.optional describes_leaf rfl ?_) .nil))
  intro draft h
  -- a column that is missing is the first one, and so is the default
  simp only [RecordFormat.result, positionFormat, h]
  rfl

theorem describes_located {α : Type} {decode : Decoder α} {s : Schema} {room : Nat}
    (hregular : decode.Regular) (h : s.Describes (room + 3) decode) :
    (locatedSchema s).Describes (room + 4) (decodeLocated decode) :=
  describes_record (tidy_located hregular) rfl
    (.cons (.required h) (.cons (.required (describes_position room)) .nil))

theorem describes_annotation (room : Nat) :
    annotationSchema.Describes (room + 3) decodeAnnotation := by
  refine describes_record tidy_annotation rfl
    (.cons (.required describes_leaf) (.cons (.optional describes_leaf rfl ?_) .nil))
  intro draft h
  simp only [RecordFormat.result, annotationFormat, h, Option.getD_some, Option.getD_none]

theorem describes_annotations (room : Nat) :
    (Schema.list annotationSchema).Describes (room + 4) (decodeList decodeAnnotation) := by
  have hitem := describes_annotation room
  exact describes_list (regular_record tidy_annotation) hitem

theorem describes_param (room : Nat) : paramSchema.Describes (room + 5) decodeParam := by
  refine describes_record tidy_param rfl ?_
  refine .cons (.required describes_leaf) (.cons (.required describes_leaf)
    (.cons (.optional (describes_annotations room) rfl ?_) .nil))
  intro draft h
  simp only [RecordFormat.result, paramFormat, h, Option.getD_some, Option.getD_none]

theorem describes_method (room : Nat) : methodSchema.Describes (room + 7) decodeMethod := by
  have hparams : (Schema.list paramSchema).Describes (room + 6) (decodeList decodeParam) :=
    describes_list (regular_record tidy_param) (describes_param room)
  have hannotations : (Schema.list annotationSchema).Describes (room + 6)
    (decodeList decodeAnnotation) := describes_annotations (room + 2)
  refine describes_record tidy_method rfl ?_
  refine .cons (.required describes_leaf) (.cons (.optional hparams rfl ?_)
    (.cons (.optional describes_leaf rfl ?_) (.cons (.optional hannotations rfl ?_) .nil)))
  -- a slot that is still empty is finished with what its default is read as
  all_goals
    intro draft h
    simp only [RecordFormat.result, methodFormat, h]
    rfl

theorem describes_type (room : Nat) : typeSchema.Describes (room + 10) decodeType := by
  have hmethods : (Schema.list (locatedSchema methodSchema)).Describes (room + 9)
      (decodeList (decodeLocated decodeMethod)) :=
    describes_list (regular_located regular_method)
      (describes_located regular_method (describes_method room))
  refine describes_record tidy_type rfl ?_
  refine .cons (.required describes_leaf) (.cons (.required describes_leaf)
    (.cons (.optional describes_leaf rfl ?_) (.cons (.optional describes_leaf rfl ?_)
      (.cons (.optional hmethods rfl ?_) .nil))))
  all_goals
    intro draft h
    simp only [RecordFormat.result, typeFormat, h]
    rfl

theorem describes_sourceUnit (room : Nat) :
    unitSchema.Describes (room + 13) decodeSourceUnit := by
  have htypes : (Schema.list (locatedSchema typeSchema)).Describes (room + 12)
      (decodeList (decodeLocated decodeType)) :=
    describes_list (regular_located regular_type)
      (describes_located regular_type (describes_type room))
  refine describes_record tidy_unit rfl ?_
  refine .cons (.optional describes_leaf rfl ?_) (.cons (.optional htypes rfl ?_)
    (.cons (.optional describes_leaf rfl ?_) .nil))
  all_goals
    intro draft h
    simp only [RecordFormat.result, unitFormat, h]
    rfl

theorem describes_program (room : Nat) : programSchema.Describes (room + 15) decodeProgram := by
  have hunits : (Schema.list unitSchema).Describes (room + 14) (decodeList decodeSourceUnit) :=
    describes_list (regular_record tidy_unit) (describes_sourceUnit room)
  refine describes_record tidy_program rfl ?_
  refine .cons (.optional hunits rfl ?_) .nil
  intro draft h
  simp only [RecordFormat.result, programFormat, h]
  rfl

/-! ### Edited texts -/

/-- A text is parsed as a program if and only if its tree is taken as the program. -/
theorem parseProgram_eq_ok_iff {text origin : String} {program : Program} :
    parseProgram text origin = .ok program ↔
      (treeOf? text).bind (decodeProgram.meaning containerRoom) = some program := by
  -- the text is decoded by its tree, with all the room there is
  have hparse := regular_program.denotes.toOption_decodeText text
  rw [← hparse]
  show (Except.mapError _ (decodeText decodeProgram text)) = _ ↔ _
  cases decodeText decodeProgram text with
  | error reason => exact ⟨nofun, nofun⟩
  | ok parsed =>
    show Except.ok parsed = Except.ok program ↔ some parsed = some program
    rw [Except.ok.injEq, Option.some.injEq]

/-- One tree is the other with the members of one object in another order, or with one member more
that makes no difference. -/
def Json.Tree.Retold (t t' : Tree) : Prop := t.Reordered t' ∨ programSchema.Edited .same t t'

/-- Documents that can be turned into each other in such steps are taken alike. -/
theorem meaning_eq_of_retold {t t' : Tree} (h : Relation.EqvGen Tree.Retold t t') :
    decodeProgram.meaning containerRoom t = decodeProgram.meaning containerRoom t' := by
  induction h with
  | rel t t' hstep =>
    rcases hstep with hordered | hedited
    · exact regular_program.stable hordered containerRoom
    · -- a model takes 15 of the 128 levels there is room for
      exact (describes_program 113 _ _ _ hedited).symm
  | refl t => rfl
  | symm t t' _ ih => exact ih.symm
  | trans t t' t'' _ _ ih ih' => exact ih.trans ih'

/-- **Retelling an accepted model changes nothing, and strict records know all their members.**
Every text of a document that the accepted one can be turned into by putting members in another
order, giving or leaving out defaults, and giving positions and placed declarations unknown members
is parsed as the same program. No text is accepted whose document has an unknown member more in a
program, a unit, a type, a method, a parameter or an annotation. -/
theorem parseProgram_retold {text origin : String} {program : Program}
    (h : parseProgram text origin = .ok program) :
    ∃ tree, treeOf? text = some tree ∧ ∀ edited tree', treeOf? edited = some tree' →
      (Relation.EqvGen Tree.Retold tree tree' → parseProgram edited origin = .ok program) ∧
      (programSchema.Edited .refused tree tree' →
        ∃ failure, parseProgram edited origin = .error failure) := by
  rw [parseProgram_eq_ok_iff] at h
  obtain ⟨tree, htree, hmeaning⟩ := Option.bind_eq_some_iff.1 h
  refine ⟨tree, htree, fun edited tree' htree' => ⟨fun hretold => ?_, fun hedited => ?_⟩⟩
  · rw [parseProgram_eq_ok_iff, htree', Option.bind_some, ← meaning_eq_of_retold hretold, hmeaning]
  · -- nothing is made of the edited tree, whatever was made of the old one
    have hnone : decodeProgram.meaning containerRoom tree' = none :=
      describes_program 113 _ _ _ hedited
    cases hparse : parseProgram edited origin with
    | error failure => exact ⟨failure, rfl⟩
    | ok other =>
      rw [parseProgram_eq_ok_iff, htree', Option.bind_some, hnone] at hparse
      cases hparse

/-! A class with a name, a kind and a line; the same with the members of the placed class in another
order and the column given; and the same with a member in the class whose name is misspelt. -/

namespace Retold

def classDecl (more : List (String × Value)) : Value :=
  .object ([("name", .string "test.Api"), ("kind", .string "class")] ++ more)

def document (located : List (String × Value)) : Value :=
  .object [("units", .array [.object [("types", .array [.object located])]])]

def brief : Value := document [("node", classDecl []), ("span", .object [("line", .integer 2)])]

def spelledOut : Value :=
  document [("span", .object [("line", .integer 2), ("column", .integer 1)]),
    ("node", classDecl [])]

def misspelt : Value :=
  document [("node", classDecl [("method", .array [])]), ("span", .object [("line", .integer 2)])]

def parsed : Program := ⟨[{ types := [⟨{ name := "test.Api", kind := .classKind }, ⟨2, 1⟩⟩] }]⟩

/-- A declaration that differs stands in a document that differs in the same way. -/
theorem reordered_document {ms ms' : List (String × Value)}
    (h : (Value.object ms).tree.Reordered (Value.object ms').tree) :
    (document ms).tree.Reordered (document ms').tree :=
  .inMember [] [] _ (.inItem [] [] (.inMember [] [] _ (.inItem [] [] h)))

theorem edited_document {ms ms' : List (String × Value)} {effect : Effect}
    (h : (locatedSchema typeSchema).Edited effect (Value.object ms).tree (Value.object ms').tree) :
    programSchema.Edited effect (document ms).tree (document ms').tree :=
  .inField (.head _) [] [] (.inItem [] [] (.inField (.tail _ (.head _)) [] [] (.inItem [] [] h)))

theorem brief_retold :
    parseProgram brief.compact "model.json" = .ok parsed ∧
      parseProgram spelledOut.compact "model.json" = .ok parsed ∧
      ∃ failure, parseProgram misspelt.compact "model.json" = .error failure := by
  have hbrief : treeOf? brief.compact = some brief.tree := treeOf?_compact (by
    simp [brief, document, classDecl, Value.InRange, ItemsInRange, MembersInRange])
  have hspelledOut : treeOf? spelledOut.compact = some spelledOut.tree := treeOf?_compact (by
    simp [spelledOut, document, classDecl, Value.InRange, ItemsInRange, MembersInRange])
  have hmisspelt : treeOf? misspelt.compact = some misspelt.tree := treeOf?_compact (by
    simp [misspelt, document, classDecl, Value.InRange, ItemsInRange, MembersInRange])
  have hparsed : parseProgram brief.compact "model.json" = .ok parsed := by
    rw [parseProgram_eq_ok_iff, hbrief]
    rfl
  -- first the members of the placed class are turned round, then the column is given
  let turned : Value :=
    document [("span", .object [("line", .integer 2)]), ("node", classDecl [])]
  have hturned : brief.tree.Reordered turned.tree := by
    refine reordered_document (.members (.swap ..) ?_)
    show ["node", "span"].Nodup
    decide
  have hcolumn : programSchema.Edited .same turned.tree spelledOut.tree := by
    refine edited_document (.inField (.tail _ (.head _)) [] [_]
      (.given (.tail _ (.head _)) [(some "line", _)] [] ?_))
    intro m hm
    rw [List.append_nil, List.mem_singleton] at hm
    rw [hm]
    decide
  have hretold : Relation.EqvGen Tree.Retold brief.tree spelledOut.tree :=
    .trans _ _ _ (.rel _ _ (.inl hturned)) (.rel _ _ (.inr hcolumn))
  have hedited : programSchema.Edited .refused brief.tree misspelt.tree :=
    edited_document (.inField (.head _) [] [_] (.unknown (by decide) [_, _] [] _))
  obtain ⟨tree, htree, hedits⟩ := parseProgram_retold hparsed
  cases hbrief.symm.trans htree
  exact ⟨hparsed, (hedits _ _ hspelledOut).1 hretold, (hedits _ _ hmisspelt).2 hedited⟩

end Retold

end OverrideCheck
