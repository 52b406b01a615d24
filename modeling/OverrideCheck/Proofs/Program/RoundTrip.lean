import OverrideCheck.Check
import OverrideCheck.Program.Encode
import OverrideCheck.Proofs.Json.Decoding
import OverrideCheck.Proofs.Json.Scanning

/-!
# Reading back written models

A program that is written as JSON, with every field given, is read back as itself. This holds of the
text, not only of the tree: no string has to be free of quotes or control characters, and no number
has to be small. The only thing that can stand in the way is the limit on open containers, which
counts every array of an annotation value twice.

* `reads_annotationValue`, `reads_members` — annotation values and tables of them, by induction on
  the value and on the table;
* `reads_annotation`, …, `reads_program` — every record of a model is read from what is written of
  it, field by field;
* `inRange_program` — every number of a model is one that stays an integer;
* `depth_toJson_lt` — how deep annotation values may be nested;
* `parseProgram_compact_toJson` — the round trip.

A table of members is kept in ascending order, so reading its members in the order in which they are
written appends them one by one (`entries_foldl_insert`).
-/

namespace OverrideCheck

open Json (Value Document Items Members Reads)

/-! ### Annotation values -/

/-- The one member of an object is read as its content. -/
theorem decodeTaggedValue_single {word : String} {kind : ValueKind}
    (hkind : valueKinds.lookup word = some kind) (room stop keySettled settled close : Nat)
    (item : Document) :
    decodeTaggedValue room (.cons ⟨.ok word, stop, keySettled⟩ item settled (.closed close)) =
      decodeContent room kind item := by
  have hword : Json.variantOf valueKinds stop word = .ok kind := by rw [Json.variantOf, hkind]
  rw [decodeTaggedValue, hword]
  -- nothing follows the member, so closing the object refuses nothing
  show (decodeContent room kind item >>= fun result => pure result) = _
  exact bind_pure _

/-- A value of a kind is read from the object whose one member is named for the kind. -/
theorem reads_tagged (kind : ValueKind) {word : String} {v : Value} {value : AnnotationValue}
    (hkind : valueKinds.lookup word = some kind)
    (h : Reads (fun room d => decodeContent room kind d) v value) :
    Reads decodeAnnotationValue (.object [(word, v)]) value := by
  intro n d hd
  cases hd with
  | object start hmembers =>
    cases hmembers with
    | @cons _ _ _ _ item _ _ _ hitem hrest =>
      cases hrest with
      | closed close =>
        rw [decodeAnnotationValue, Json.toOption_enter_bind]
        cases n with
        | zero => rfl
        | succ k =>
          have hcontent : (decodeContent (k + 1) kind item).toOption = _ := h k item hitem
          simp only [decodeTaggedValue_single hkind, hcontent, Value.depth, Json.membersDepth,
            Nat.max_zero, Nat.add_le_add_iff_right]

theorem decodeElements_eq_decodeItems (room : Nat) (items : Json.Items) :
    decodeElements room items = Json.decodeItems decodeAnnotationValue room items := by
  -- the function for elements is the general one, written out for the sake of its recursion
  cases items with
  | closed stop => rfl
  | broken breach => rfl
  | cons item settled rest =>
    rw [decodeElements, Json.decodeItems]
    cases decodeAnnotationValue room item with
    | error refusal => rfl
    | ok value =>
      simp only [decodeElements_eq_decodeItems room rest]
      cases Json.decodeItems decodeAnnotationValue room rest <;> rfl

mutual

/-- An annotation value is read back from what is written of it. -/
theorem reads_annotationValue (value : AnnotationValue) :
    Reads decodeAnnotationValue value.toJson value := by
  cases value with
  | classLiteral name =>
    refine reads_tagged .classLiteral rfl (((Json.reads_string name).map _).congr ?_)
    intro n d hd
    cases hd
    rfl
  | string text =>
    refine reads_tagged .string rfl (((Json.reads_string text).map _).congr ?_)
    intro n d hd
    cases hd
    rfl
  | integer value =>
    refine reads_tagged .integer rfl (((Json.reads_int64 value).map _).congr ?_)
    intro n d hd
    cases hd
    rfl
  | boolean value =>
    refine reads_tagged .boolean rfl (((Json.reads_boolean value).map _).congr ?_)
    intro n d hd
    cases hd
    rfl
  | array elements =>
    -- only here another container is opened, and the elements are values again
    refine reads_tagged .array rfl
      (((Json.reads_list (reads_elements elements)).map AnnotationValue.array).congr ?_)
    intro n d hd
    cases hd with
    | array start hitems =>
      rw [decodeContent, Json.decodeList]
      cases Json.enter n start with
      | error refusal => rfl
      | ok room =>
        show (decodeElements room _ >>= _) = (Json.decodeItems decodeAnnotationValue room _).map _
        rw [decodeElements_eq_decodeItems]
        rfl

theorem reads_elements (elements : List AnnotationValue) :
    List.Forall₂ (Reads decodeAnnotationValue) (AnnotationValue.listToJson elements) elements := by
  cases elements with
  | nil => exact .nil
  | cons value rest => exact .cons (reads_annotationValue value) (reads_elements rest)

end

/-! ### Tables of members -/

/-- A name that comes after all others is put at the end. -/
theorem insertEntry_of_forall_lt {name : String} (value : AnnotationValue)
    {entries : List (String × AnnotationValue)} (h : ∀ entry ∈ entries, entry.1 < name) :
    MemberTable.insertEntry name value entries = entries ++ [(name, value)] := by
  induction entries with
  | nil => rfl
  | cons entry rest ih =>
    have hlt : entry.1 < name := h entry List.mem_cons_self
    rw [MemberTable.insertEntry, if_neg (String.lt_asymm hlt), if_pos hlt,
      ih fun other hother => h other (List.mem_cons_of_mem _ hother), List.cons_append]

/-- Entries that go on in ascending order are put at the end one by one. -/
theorem entries_foldl_insert (rest : List (String × AnnotationValue)) (t : MemberTable)
    (h : ((t.entries ++ rest).map Prod.fst).Pairwise (· < ·)) :
    (rest.foldl (fun t entry => t.insert entry.1 entry.2) t).entries = t.entries ++ rest := by
  induction rest generalizing t with
  | nil => exact (List.append_nil _).symm
  | cons entry rest ih =>
    -- every name of the table comes before the new one, so the entry goes to the end
    have hlast : (t.insert entry.1 entry.2).entries = t.entries ++ [entry] := by
      refine insertEntry_of_forall_lt _ fun other hother => ?_
      rw [List.map_append, List.pairwise_append] at h
      exact h.2.2 _ (List.mem_map_of_mem hother) _ (List.mem_map_of_mem List.mem_cons_self)
    have hsplit : (t.insert entry.1 entry.2).entries ++ rest = t.entries ++ entry :: rest := by
      rw [hlast, List.append_assoc, List.singleton_append]
    rw [List.foldl_cons, ih _ (hsplit ▸ h), hsplit]

/-- A table is the table of its entries. -/
theorem ofList_entries (t : MemberTable) : MemberTable.ofList t.entries = t := by
  have h : (MemberTable.ofList t.entries).entries = t.entries :=
    entries_foldl_insert t.entries .empty t.ascending
  cases t
  cases hlist : MemberTable.ofList _
  simpa [hlist] using h

/-- The members of an annotation are put into a table in the order in which they come. -/
theorem toOption_decodeMembersInto (entries : List (String × AnnotationValue)) (t : MemberTable)
    {members : Members}
    (hmembers : members.StandFor (entries.map fun (name, value) => (name, value.toJson)))
    (n : Nat) :
    (decodeMembersInto (n + 1) members t).toOption =
      if Json.membersDepth (entries.map fun (name, value) => (name, value.toJson)) ≤ n then
        some (entries.foldl (fun t entry => t.insert entry.1 entry.2) t)
      else none := by
  induction entries generalizing members t with
  | nil =>
    cases hmembers
    rfl
  | cons entry entries ih =>
    obtain ⟨name, value⟩ := entry
    cases hmembers with
    | @cons _ _ settled _ item rest _ _ hitem hrest =>
      rw [decodeMembersInto, List.map_cons, Json.membersDepth, List.foldl_cons]
      -- what is left to read depends on the value that was read, through the table
      let next (value : AnnotationValue) := decodeMembersInto (n + 1) rest (t.insert name value)
      have hnext : (next value).toOption = _ := ih (t.insert name value) hrest
      have hstep := Json.toOption_step settled (reads_annotationValue value n item hitem) hnext
      refine Eq.trans ?_ hstep
      cases decodeAnnotationValue (n + 1) item <;> rfl

theorem reads_members (t : MemberTable) : Reads decodeMembers t.toJson t := by
  -- the whole table is read into the empty one, and a table is built anew from its own entries
  intro n d hd
  cases hd with
  | object start hmembers =>
    rw [decodeMembers, Json.toOption_enter_bind, MemberTable.toJson, Value.depth]
    cases n with
    | zero => rfl
    | succ k =>
      have htable : t.entries.foldl (fun t entry => t.insert entry.1 entry.2) .empty = t :=
        ofList_entries t
      simp only [toOption_decodeMembersInto t.entries .empty hmembers, htable,
        Nat.add_le_add_iff_right]

/-! ### Records -/

theorem reads_position (p : Position) : Reads decodePosition p.toJson p :=
  Json.reads_record (.cons rfl rfl ((Json.reads_uint32 p.line).map _)
    (.cons rfl rfl ((Json.reads_uint32 p.column).map _) (.nil _))) rfl

theorem reads_located {α : Type} {encode : α → Value} {decode : Json.Decoder α} (l : Located α)
    (h : Reads decode (encode l.node) l.node) :
    Reads (decodeLocated decode) (l.toJson encode) l :=
  Json.reads_record (.cons rfl rfl (h.map _)
    (.cons rfl rfl ((reads_position l.position).map _) (.nil _))) rfl

theorem reads_writtenType (t : WrittenType) : Reads decodeWrittenType (.string t.text) t :=
  (Json.reads_string t.text).map WrittenType.mk

theorem reads_annotation (a : Annotation) : Reads decodeAnnotation a.toJson a :=
  Json.reads_record (.cons rfl rfl ((Json.reads_string a.name).map _)
    (.cons rfl rfl ((reads_members a.values).map _) (.nil _))) rfl

theorem reads_annotations (annotations : List Annotation) :
    Reads (Json.decodeList decodeAnnotation) (.array (annotations.map Annotation.toJson))
      annotations :=
  Json.reads_list_map fun a _ => reads_annotation a

theorem reads_param (p : Param) : Reads decodeParam p.toJson p :=
  Json.reads_record (.cons rfl rfl ((Json.reads_string p.name).map _)
    (.cons rfl rfl ((reads_writtenType p.type).map _)
      (.cons rfl rfl ((reads_annotations p.annotations).map _) (.nil _)))) rfl

theorem reads_method (m : MethodDecl) : Reads decodeMethod m.toJson m :=
  Json.reads_record (.cons rfl rfl ((Json.reads_string m.name).map _)
    (.cons rfl rfl ((Json.reads_list_map fun p _ => reads_param p).map _)
      (.cons rfl rfl ((reads_writtenType m.returnType).map _)
        (.cons rfl rfl ((reads_annotations m.annotations).map _) (.nil _))))) rfl

theorem reads_typeKind (k : TypeKind) :
    Reads (Json.decodeVariant typeKinds) (.string k.word) k := by
  cases k <;> exact Json.reads_variant rfl

/-- What may be left out is written as `null` and read as nothing. -/
theorem reads_optionalString (s : Option String) :
    Reads (Json.decodeOption Json.decodeString) (.ofOption .string s) s := by
  cases s with
  | none => exact Json.reads_option_null
  | some text => exact Json.reads_option (Json.reads_string text) nofun

theorem reads_type (t : TypeDecl) : Reads decodeType t.toJson t :=
  Json.reads_record (.cons rfl rfl ((Json.reads_string t.name).map _)
    (.cons rfl rfl ((reads_typeKind t.kind).map _)
      (.cons rfl rfl ((reads_optionalString t.superclass).map _)
        (.cons rfl rfl ((Json.reads_list_map fun s _ => Json.reads_string s).map _)
          (.cons rfl rfl
            ((Json.reads_list_map fun l _ => reads_located l (reads_method l.node)).map _)
            (.nil _)))))) rfl

theorem reads_sourceUnit (u : SourceUnit) : Reads decodeSourceUnit u.toJson u :=
  Json.reads_record (.cons rfl rfl ((reads_optionalString u.path?).map _)
    (.cons rfl rfl ((Json.reads_list_map fun l _ => reads_located l (reads_type l.node)).map _)
      (.cons rfl rfl ((reads_optionalString u.source?).map _) (.nil _)))) rfl

theorem reads_program (p : Program) : Reads decodeProgram p.toJson p :=
  Json.reads_record
    (.cons rfl rfl ((Json.reads_list_map fun u _ => reads_sourceUnit u).map _) (.nil _)) rfl

/-! ### Range -/

theorem itemsInRange_map {α : Type} {encode : α → Value} (h : ∀ a, (encode a).InRange)
    (as : List α) : Json.ItemsInRange (as.map encode) := by
  induction as with
  | nil => trivial
  | cons a as ih => exact ⟨h a, ih⟩

mutual

theorem inRange_annotationValue (value : AnnotationValue) : value.toJson.InRange := by
  cases value with
  | classLiteral name => exact ⟨trivial, trivial⟩
  | string text => exact ⟨trivial, trivial⟩
  | integer value =>
    refine ⟨⟨value.minValue_le_toInt, ?_⟩, trivial⟩
    exact Int.le_trans value.toInt_le (by decide)
  | boolean value => exact ⟨trivial, trivial⟩
  | array elements => exact ⟨inRange_elements elements, trivial⟩

theorem inRange_elements (elements : List AnnotationValue) :
    Json.ItemsInRange (AnnotationValue.listToJson elements) := by
  cases elements with
  | nil => trivial
  | cons value rest => exact ⟨inRange_annotationValue value, inRange_elements rest⟩

end

theorem inRange_uint32 (n : UInt32) : (Value.integer n.toNat).InRange := by
  refine ⟨Int.le_trans (by decide) (Int.natCast_nonneg _), ?_⟩
  have hbound := n.toNat_lt_size
  exact Int.ofNat_le.2 (Nat.le_trans (Nat.le_of_lt hbound) (by decide))

theorem inRange_position (p : Position) : p.toJson.InRange :=
  ⟨inRange_uint32 p.line, inRange_uint32 p.column, trivial⟩

theorem inRange_annotation (a : Annotation) : a.toJson.InRange := by
  refine ⟨trivial, ?_, trivial⟩
  show Json.MembersInRange (a.values.entries.map fun (name, value) => (name, value.toJson))
  induction a.values.entries with
  | nil => trivial
  | cons entry entries ih => exact ⟨inRange_annotationValue entry.2, ih⟩

theorem inRange_param (p : Param) : p.toJson.InRange :=
  ⟨trivial, trivial, itemsInRange_map inRange_annotation _, trivial⟩

theorem inRange_method (m : MethodDecl) : m.toJson.InRange :=
  ⟨trivial, itemsInRange_map inRange_param _, trivial, itemsInRange_map inRange_annotation _,
    trivial⟩

theorem inRange_ofOption (s : Option String) : (Value.ofOption .string s).InRange := by
  cases s <;> trivial

theorem inRange_located {α : Type} {encode : α → Value} (h : ∀ a, (encode a).InRange)
    (l : Located α) : (l.toJson encode).InRange :=
  ⟨h l.node, inRange_position l.position, trivial⟩

theorem inRange_string (text : String) : (Value.string text).InRange := trivial

theorem inRange_type (t : TypeDecl) : t.toJson.InRange :=
  ⟨trivial, trivial, inRange_ofOption _, itemsInRange_map inRange_string _,
    itemsInRange_map (inRange_located inRange_method) _, trivial⟩

theorem inRange_sourceUnit (u : SourceUnit) : u.toJson.InRange :=
  ⟨inRange_ofOption _, itemsInRange_map (inRange_located inRange_type) _, inRange_ofOption _,
    trivial⟩

theorem inRange_program (p : Program) : p.toJson.InRange :=
  ⟨itemsInRange_map inRange_sourceUnit _, trivial⟩

/-! ### What is nested -/

mutual

/-- How many arrays of an annotation value are nested in one another. -/
def AnnotationValue.nesting : AnnotationValue → Nat
  | .array elements => AnnotationValue.listNesting elements + 1
  | _ => 0

def AnnotationValue.listNesting : List AnnotationValue → Nat
  | [] => 0
  | value :: rest => max value.nesting (AnnotationValue.listNesting rest)

end

mutual

/-- Every array of an annotation value is written as two containers, and what it ends in as one. -/
theorem depth_annotationValue (value : AnnotationValue) :
    value.toJson.depth ≤ 2 * value.nesting + 1 := by
  cases value with
  | array elements =>
    have h := depth_elements elements
    -- the object that names the kind, and the list in it
    simp only [AnnotationValue.toJson, Value.depth, Json.membersDepth, AnnotationValue.nesting]
    omega
  | _ => exact Nat.le_refl 1

theorem depth_elements (elements : List AnnotationValue) :
    Json.itemsDepth (AnnotationValue.listToJson elements) ≤
      2 * AnnotationValue.listNesting elements + 1 := by
  cases elements with
  | nil => exact Nat.zero_le _
  | cons value rest =>
    have hvalue := depth_annotationValue value
    have hrest := depth_elements rest
    simp only [AnnotationValue.listToJson, Json.itemsDepth, AnnotationValue.listNesting]
    omega

end

/-- The annotations of a method and of its parameters. -/
def MethodDecl.allAnnotations (m : MethodDecl) : List Annotation :=
  m.annotations ++ m.params.flatMap (·.annotations)

/-- No annotation of a program nests more than `k` arrays in one another. -/
def Program.NestedWithin (p : Program) (k : Nat) : Prop :=
  ∀ u ∈ p.units, ∀ t ∈ u.types, ∀ m ∈ t.node.methods, ∀ a ∈ m.node.allAnnotations,
    ∀ entry ∈ a.values.entries, entry.2.nesting ≤ k

theorem itemsDepth_map_le {α : Type} {encode : α → Value} {as : List α} {n : Nat}
    (h : ∀ a ∈ as, (encode a).depth ≤ n) : Json.itemsDepth (as.map encode) ≤ n := by
  induction as with
  | nil => exact Nat.zero_le n
  | cons a as ih =>
    exact Nat.max_le.2 ⟨h a List.mem_cons_self, ih fun b hb => h b (List.mem_cons_of_mem _ hb)⟩

theorem depth_memberTable {t : MemberTable} {k : Nat}
    (h : ∀ entry ∈ t.entries, entry.2.nesting ≤ k) : t.toJson.depth ≤ 2 * k + 2 := by
  -- the object itself is one container, and its members are taken one by one
  refine Nat.succ_le_succ ?_
  generalize t.entries = entries at h ⊢
  induction entries with
  | nil => exact Nat.zero_le _
  | cons entry entries ih =>
    have hnesting := h entry List.mem_cons_self
    have hdepth := depth_annotationValue entry.2
    refine Nat.max_le.2 ⟨by omega, ih fun other hother => ?_⟩
    exact h other (List.mem_cons_of_mem _ hother)

theorem depth_annotation {a : Annotation} {k : Nat}
    (h : ∀ entry ∈ a.values.entries, entry.2.nesting ≤ k) : a.toJson.depth ≤ 2 * k + 3 := by
  have hvalues := depth_memberTable h
  simp only [Value.depth, Annotation.toJson, Json.membersDepth]
  omega

theorem depth_method {m : MethodDecl} {k : Nat}
    (h : ∀ a ∈ m.allAnnotations, ∀ entry ∈ a.values.entries, entry.2.nesting ≤ k) :
    m.toJson.depth ≤ 2 * k + 7 := by
  -- the deepest annotations are those of parameters, one record and one list further down
  have hannotations : Json.itemsDepth (m.annotations.map Annotation.toJson) ≤ 2 * k + 3 :=
    itemsDepth_map_le fun a ha => depth_annotation (h a (List.mem_append_left _ ha))
  have hparam : ∀ p ∈ m.params, p.toJson.depth ≤ 2 * k + 5 := by
    intro p hp
    have hparam : Json.itemsDepth (p.annotations.map Annotation.toJson) ≤ 2 * k + 3 := by
      refine itemsDepth_map_le fun a ha => depth_annotation (h a ?_)
      exact List.mem_append_right _ (List.mem_flatMap.2 ⟨p, hp, ha⟩)
    simp only [Param.toJson, Value.depth, Json.membersDepth]
    omega
  have hparams := itemsDepth_map_le hparam
  simp only [MethodDecl.toJson, Value.depth, Json.membersDepth]
  omega

theorem depth_located {α : Type} {encode : α → Value} {l : Located α} {n : Nat}
    (h : (encode l.node).depth ≤ n + 1) : (l.toJson encode).depth ≤ n + 2 := by
  simp only [Located.toJson, Position.toJson, Value.depth, Json.membersDepth]
  omega

theorem depth_type {t : TypeDecl} {k : Nat}
    (h : ∀ m ∈ t.methods, ∀ a ∈ m.node.allAnnotations, ∀ entry ∈ a.values.entries,
      entry.2.nesting ≤ k) : t.toJson.depth ≤ 2 * k + 10 := by
  have hmethods : Json.itemsDepth (t.methods.map (Located.toJson MethodDecl.toJson)) ≤ 2 * k + 8 :=
    itemsDepth_map_le fun m hm => depth_located (depth_method (h m hm))
  have hinterfaces : Json.itemsDepth (t.interfaces.map .string) ≤ 0 :=
    itemsDepth_map_le fun _ _ => Nat.le_refl 0
  have hsuperclass : (Value.ofOption .string t.superclass).depth = 0 := by
    cases t.superclass <;> rfl
  simp only [TypeDecl.toJson, Value.depth, Json.membersDepth]
  omega

/-- Up to 56 arrays may be nested in the annotations of a program that is to be read back. -/
theorem depth_toJson_lt {p : Program} (h : p.NestedWithin 56) :
    p.toJson.depth < Json.containerRoom := by
  -- 125 for a unit, a list around the units and the object of the program: 127 of 128
  have hunit : ∀ u ∈ p.units, u.toJson.depth ≤ 125 := by
    intro u hu
    have htypes : Json.itemsDepth (u.types.map (Located.toJson TypeDecl.toJson)) ≤ 123 :=
      itemsDepth_map_le fun t ht => depth_located (depth_type (h u hu t ht))
    have hoption : ∀ s : Option String, (Value.ofOption .string s).depth = 0 := by
      intro s
      cases s <;> rfl
    simp only [SourceUnit.toJson, Value.depth, Json.membersDepth, hoption]
    omega
  have hunits := itemsDepth_map_le hunit
  simp only [Program.toJson, Value.depth, Json.membersDepth, Json.containerRoom]
  omega

/-! ### Programs -/

/-- A written program is read back from its text unless it is nested too deep. -/
theorem toOption_parse_compact (p : Program) :
    (Program.parse p.toJson.compact).toOption =
      if p.toJson.depth < Json.containerRoom then some p else none := by
  -- scanning gives a tree that stands for what was written, with nothing left behind it
  obtain ⟨hroot, hnothing⟩ := Json.ofText_compact (inRange_program p)
  have hread : (decodeProgram Json.containerRoom _).toOption =
      if p.toJson.depth < Json.containerRoom then some p else none :=
    (reads_program p _ _ hroot).trans (by simp [Json.containerRoom, Nat.lt_succ_iff])
  rw [Program.parse, Json.decodeText, ← hread]
  cases decodeProgram Json.containerRoom (Json.Reading.ofText p.toJson.compact).root with
  | error refusal => rfl
  | ok program =>
    simp only [hnothing]
    rfl

/-- **Reading undoes writing**, up to the limit on open containers and no further. Only annotation
values can come near that limit. -/
theorem parseProgram_compact_toJson (p : Program) (origin : String) :
    (p.toJson.depth < Json.containerRoom → parseProgram p.toJson.compact origin = .ok p) ∧
      (Json.containerRoom ≤ p.toJson.depth →
        ∃ failure, parseProgram p.toJson.compact origin = .error failure) ∧
      (p.NestedWithin 56 → p.toJson.depth < Json.containerRoom) := by
  have hparse := toOption_parse_compact p
  -- `toOption_parse_compact` decides both directions; only the message of a refusal is left open
  refine ⟨fun hdepth => ?_, fun hdepth => ?_, depth_toJson_lt⟩
  · rw [if_pos hdepth] at hparse
    rw [parseProgram, Json.eq_ok_of_toOption hparse]
    rfl
  · rw [if_neg (Nat.not_lt.2 hdepth)] at hparse
    obtain ⟨reason, hreason⟩ := Json.exists_eq_error_of_toOption hparse
    rw [parseProgram, hreason]
    exact ⟨_, rfl⟩

/-! The parts of a model that are easily lost: what is left out, a text that has to be escaped, a
number with a sign, and a value of values. -/

namespace Written

def tower : Nat → AnnotationValue
  | 0 => .string "a \"b\"\n\x01 ü"
  | height + 1 => .array [.boolean false, tower height]

def unit (height : Nat) : SourceUnit where
  types := [⟨{
    name := "test.Impl"
    kind := .classKind
    interfaces := ["test.Api"]
    methods := [⟨{
      name := "foo"
      params := [⟨"p", ⟨"T[]"⟩, [⟨"test.Note", MemberTable.ofList
        [("least", .integer Int64.minValue), ("names", tower height)]⟩]⟩]
    }, ⟨4294967295, 3⟩⟩] }, ⟨2, 1⟩⟩]
  source? := some "class Impl\r\n\t"

/-- With two arrays around the text the unit is read back, and with sixty it is refused. -/
theorem unit_read_back :
    parseProgram (Program.toJson ⟨[unit 2]⟩).compact "model.json" = .ok ⟨[unit 2]⟩ ∧
      ∃ failure, parseProgram (Program.toJson ⟨[unit 60]⟩).compact "model.json" =
        .error failure := by
  have hnested : Program.NestedWithin ⟨[unit 2]⟩ 56 := by
    unfold Program.NestedWithin
    decide
  have hlow := parseProgram_compact_toJson ⟨[unit 2]⟩ "model.json"
  have hhigh := parseProgram_compact_toJson ⟨[unit 60]⟩ "model.json"
  exact ⟨hlow.1 (hlow.2.2 hnested), hhigh.2.1 (by decide +kernel)⟩

end Written

end OverrideCheck
