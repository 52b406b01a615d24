import OverrideCheck.Program.Decode
import OverrideCheck.Proofs.Json.RecordTrees
import OverrideCheck.Proofs.Program.RoundTrip

/-!
# Declaration models as trees

The decoder of declaration models looks at nothing but the tree of a text, and not at the order of
the members of its objects. This is put together from the decoders of its parts.

* `toOption_decodeAnnotationValue`, `stable_valueMeaning` — annotation values hold one another, so
  that they are taken by their trees is an induction on the document, and that they do not see the
  order of members is one on where the trees differ;
* `insert_comm`, `regular_members` — tables of members, into which values of different names can be
  put in either order;
* `tidy_position`, …, `tidy_program` — the records of a model are tidy, each field having a slot of
  the draft to itself;
* `regular_position`, …, `regular_program` — so they are taken by their trees, in any order of
  members.
-/

namespace OverrideCheck

open Json

/-! ### Annotation values -/

theorem decodeTaggedValue_eq_decodeTagged (room : Nat) (members : Members) :
    decodeTaggedValue room members =
      decodeTagged valueKinds (fun kind room d => decodeContent room kind d) room members := by
  match members with
  | .closed _ | .broken _ => rfl
  | .cons ⟨.error _, _, _⟩ _ _ _ => rfl
  | .cons ⟨.ok _, _, _⟩ _ _ _ => rfl

/-- What an array holds is a list of annotation values. -/
theorem toOption_decodeContent_array (room : Nat) (d : Document) :
    (decodeContent room .array d).toOption =
      ((decodeList decodeAnnotationValue room d).map AnnotationValue.array).toOption := by
  cases d with
  | array start items =>
    rw [decodeContent, decodeList]
    cases enter room start with
    | error refusal => rfl
    | ok inner =>
      show (decodeElements inner items >>= _).toOption =
        ((decodeItems decodeAnnotationValue inner items).map _).toOption
      -- the loop over annotation values is the one over items of any kind
      rw [decodeElements_eq_decodeItems]
      cases decodeItems decodeAnnotationValue inner items <;> rfl
  | _ => rfl

theorem regular_uint32 : decodeUInt32.Regular := (plain_integer ..).regular.map _

theorem regular_int64 : decodeInt64.Regular := (plain_integer ..).regular.map _

/-- The contents of all kinds but one are plain values. -/
theorem regular_content {kind : ValueKind} (h : kind ≠ .array) :
    Decoder.Regular fun room d => decodeContent room kind d := by
  match kind with
  | .classLiteral =>
    refine (plain_string.regular.map AnnotationValue.classLiteral).congr fun _ d => ?_
    cases d <;> rfl
  | .string =>
    refine (plain_string.regular.map AnnotationValue.string).congr fun _ d => ?_
    cases d <;> rfl
  | .integer =>
    refine (regular_int64.map AnnotationValue.integer).congr fun _ d => ?_
    cases d <;> rfl
  | .boolean =>
    refine (plain_boolean.regular.map AnnotationValue.boolean).congr fun _ d => ?_
    cases d <;> rfl
  | .array => exact absurd rfl h

/-- What the content of a kind makes of a tree. -/
def contentMeaning (kind : ValueKind) (room : Nat) (t : Tree) : Option AnnotationValue :=
  (decodeContent room kind t.document).toOption

/-- What an annotation value is made of: one member, with the content of its kind. -/
def valueMeaning (room : Nat) : Tree → Option AnnotationValue
  | .object ms => (innerRoom? room).bind fun room => taggedMeaning valueKinds contentMeaning room ms
  | _ => none

/-- An annotation value is taken if the content of its one member is. -/
theorem toOption_decodeAnnotationValue_of (d : Document)
    (h : ∀ start key value settled rest, d = .object start (.cons key value settled rest) →
      ∀ kind room, (decodeContent room kind value).toOption =
        value.tree?.bind (contentMeaning kind room)) (room : Nat) :
    (decodeAnnotationValue room d).toOption = d.tree?.bind (valueMeaning room) := by
  match d with
  | .object start members =>
    have hmembers (room : Nat) : (decodeTaggedValue room members).toOption =
        members.trees?.bind (taggedMeaning valueKinds contentMeaning room) := by
      rw [decodeTaggedValue_eq_decodeTagged]
      refine toOption_decodeTagged members fun key value settled rest hmembers kind => ?_
      exact h start key value settled rest (by rw [hmembers]) kind room
    rw [decodeAnnotationValue, Document.tree?, Option.bind_map]
    exact toOption_container hmembers
  | .array _ items =>
    rw [Document.tree?]
    cases items.trees? <;> rfl
  | .string _ _ (.ok _) => rfl
  | .string _ _ (.error _) => rfl
  | .literal _ _ _ => rfl
  | .cutString _ _ | .cutLiteral _ _ | .absent _ => rfl

theorem toOption_decodeAnnotationValue_document (room : Nat) (t : Tree) :
    (decodeAnnotationValue room t.document).toOption = valueMeaning room t := by
  rw [toOption_decodeAnnotationValue_of, Tree.tree?_document, Option.bind_some]
  intro start key value settled rest hd kind inner
  match t with
  | .object ((name, u) :: ms) =>
    -- the content is again the document of a tree, and such a one is what the meaning is read off
    have hvalue : value = u.document := by
      rw [Tree.document, membersOf] at hd
      cases hd
      rfl
    rw [hvalue, Tree.tree?_document]
    rfl
  | .object [] => cases hd
  | .array _ | .string _ | .literal _ => cases hd

theorem contentMeaning_array (room : Nat) (t : Tree) :
    contentMeaning .array room t = (listMeaning valueMeaning room t).map .array := by
  have hlist : (decodeList decodeAnnotationValue room t.document).toOption =
      listMeaning valueMeaning room t := by
    rw [toOption_decodeList, Tree.tree?_document, Option.bind_some]
    intro start items hd item hitem inner
    -- the items of a tree's document are the documents of its items
    match t with
    | .array ts =>
      rw [Tree.document] at hd
      cases hd
      rw [documents_itemsOf] at hitem
      obtain ⟨u, -, rfl⟩ := List.mem_map.1 hitem
      rw [toOption_decodeAnnotationValue_document, Tree.tree?_document, Option.bind_some]
    | .object _ | .string _ | .literal _ => cases hd
  rw [contentMeaning, toOption_decodeContent_array, toOption_map, hlist]

theorem sizeOf_lt_of_mem_documents {item : Document} :
    ∀ {items : Items}, item ∈ items.documents → sizeOf item < sizeOf items
  | .cons first settled rest, h => by
    rw [Items.cons.sizeOf_spec]
    rcases List.mem_cons.1 h with rfl | hrest
    · omega
    · have hlt := sizeOf_lt_of_mem_documents hrest
      omega

/-- Annotation values are taken by their trees. The induction is on the document: the items of an
array stand two levels below the value. -/
theorem toOption_decodeAnnotationValue (d : Document) (room : Nat) :
    (decodeAnnotationValue room d).toOption = d.tree?.bind (valueMeaning room) := by
  refine toOption_decodeAnnotationValue_of d (fun _ _ value _ _ hd kind inner => ?_) room
  -- only the content of an array holds values again, and there the induction goes on
  by_cases hkind : kind = .array
  · have hlist : (decodeList decodeAnnotationValue inner value).toOption =
        value.tree?.bind (listMeaning valueMeaning inner) := by
      refine toOption_decodeList fun start items hvalue item hitem room => ?_
      exact toOption_decodeAnnotationValue item room
    rw [hkind, toOption_decodeContent_array, toOption_map, hlist, Option.map_bind]
    congr 1
    funext t
    exact (contentMeaning_array inner t).symm
  · exact (regular_content hkind).denotes inner value
termination_by sizeOf d
decreasing_by
  have hlt := sizeOf_lt_of_mem_documents hitem
  rw [hd, hvalue, Document.object.sizeOf_spec, Members.cons.sizeOf_spec, Document.array.sizeOf_spec]
  omega

/-- The order of members makes no difference to a value, nor to a list of values. The induction is
on where the trees differ, and serves both: the content of an array is a list. -/
theorem stable_valueMeaning {t t' : Tree} (h : t.Reordered t') :
    (∀ room, valueMeaning room t = valueMeaning room t') ∧
      ∀ room, listMeaning valueMeaning room t = listMeaning valueMeaning room t' := by
  induction h with
  | members hperm _ =>
    refine ⟨fun room => ?_, fun room => rfl⟩
    exact congrArg (innerRoom? room).bind (funext fun inner => taggedMeaning_perm hperm)
  | inItem before after _ ih =>
    -- an array is taken as a list of values only, and there the item that differs is taken alike
    exact ⟨fun room => rfl, fun room => listMeaning_congr ih.1 before after room⟩
  | @inMember before after key t t' ht ih =>
    refine ⟨fun room => congrArg (innerRoom? room).bind (funext fun inner => ?_), fun room => rfl⟩
    refine taggedMeaning_congr (fun kind => ?_) before after key
    -- the content of an array is a list, which is what the second half of the hypothesis is for
    by_cases hkind : kind = .array
    · rw [hkind, contentMeaning_array, contentMeaning_array, ih.2]
    · exact (regular_content hkind).stable ht inner

/-! ### Tables of members -/

namespace MemberTable

variable {name other : String} {value old : AnnotationValue}
  {entries : List (String × AnnotationValue)}

theorem insertEntry_cons_of_lt (h : name < other) :
    insertEntry name value ((other, old) :: entries) =
      (name, value) :: (other, old) :: entries := by
  rw [insertEntry, if_pos h]

theorem insertEntry_cons_of_gt (h : other < name) :
    insertEntry name value ((other, old) :: entries) =
      (other, old) :: insertEntry name value entries := by
  rw [insertEntry, if_neg (String.lt_asymm h), if_pos h]

theorem insertEntry_cons_self :
    insertEntry name value ((name, old) :: entries) = (name, value) :: entries := by
  rw [insertEntry, if_neg (String.lt_irrefl name), if_neg (String.lt_irrefl name)]

/-- Of two names the lesser one may be put in last. -/
theorem insertEntry_comm_of_lt (h : name < other) (v w : AnnotationValue) :
    ∀ entries, insertEntry other w (insertEntry name v entries) =
      insertEntry name v (insertEntry other w entries)
  | [] => by
    rw [insertEntry, insertEntry_cons_of_gt h, insertEntry, insertEntry_cons_of_lt h]
  | (key, old) :: entries => by
    by_cases hbefore : name < key
    · -- the lesser name comes first, wherever the other one goes
      rw [insertEntry_cons_of_lt hbefore, insertEntry_cons_of_gt h, insertEntry]
      split
      · rw [insertEntry_cons_of_lt h]
      · split
        · rw [insertEntry_cons_of_lt hbefore]
        · rw [insertEntry_cons_of_lt h]
    · by_cases hafter : key < name
      · -- both names go behind the first entry
        rw [insertEntry_cons_of_gt hafter, insertEntry_cons_of_gt (String.lt_trans hafter h),
          insertEntry_comm_of_lt h v w entries, insertEntry_cons_of_gt (String.lt_trans hafter h),
          insertEntry_cons_of_gt hafter]
      · -- the lesser name is there already, and its value is replaced
        have hkey : name = key :=
          String.le_antisymm (String.not_lt.1 hafter) (String.not_lt.1 hbefore)
        rw [← hkey, insertEntry_cons_self, insertEntry_cons_of_gt h, insertEntry_cons_of_gt h,
          insertEntry_cons_self]

/-- Values of different names can be put into a table in either order. -/
theorem insert_comm (h : name ≠ other) (t : MemberTable) (v w : AnnotationValue) :
    (t.insert name v).insert other w = (t.insert other w).insert name v := by
  have hentries : insertEntry other w (insertEntry name v t.entries) =
      insertEntry name v (insertEntry other w t.entries) := by
    by_cases hlt : name < other
    · exact insertEntry_comm_of_lt hlt v w t.entries
    · have hgt : other < name := by
        by_contra hle
        exact h (String.le_antisymm (String.not_lt.1 hle) (String.not_lt.1 hlt))
      exact (insertEntry_comm_of_lt hgt w v t.entries).symm
  unfold insert
  simp only [hentries]

end MemberTable

/-- What a table does with a member. -/
def putMember (room : Nat) (table : MemberTable) : Option String × Tree → Option MemberTable
  | (none, _) => none
  | (some name, t) => (valueMeaning room t).map (table.insert name)

/-- What the decoder of tables makes of a tree. -/
def tableMeaning (room : Nat) : Tree → Option MemberTable
  | .object ms => (innerRoom? room).bind fun room => putAll (putMember room) (some .empty) ms
  | _ => none

theorem toOption_decodeMembersInto_eq (room : Nat) :
    ∀ members table, (decodeMembersInto room members table).toOption =
      members.trees?.bind fun ms => (putAll (putMember room) (some table) ms).bind some
  | .closed _, _ => rfl
  | .broken _, _ => rfl
  | .cons ⟨.error _, _, _⟩ value _ rest, _ => by
    rw [bind_putAll_cons]
    show none = value.tree?.bind fun _ => none
    rw [Option.bind_fun_none]
  | .cons ⟨.ok name, stop, keySettled⟩ value settled rest, table => by
    have hrest := toOption_decodeMembersInto_eq room rest
    have hvalue := toOption_decodeAnnotationValue value room
    rw [bind_putAll_cons, decodeMembersInto]
    -- both sides read the value first, and put the rest into the table that it leaves
    have hbind : (value.tree?.bind fun t => ((valueMeaning room t).map (table.insert name)).bind
        fun next => rest.trees?.bind fun ms => (putAll (putMember room) (some next) ms).bind some) =
        (decodeAnnotationValue room value).toOption.bind fun v =>
          (decodeMembersInto room rest (table.insert name v)).toOption := by
      rw [hvalue, Option.bind_assoc]
      simp only [hrest, Option.bind_map, Function.comp_def]
    refine Eq.trans ?_ hbind.symm
    cases decodeAnnotationValue room value <;> rfl

theorem denotes_members : Denotes decodeMembers tableMeaning := by
  intro room d
  cases d with
  | object start members =>
    have htable (room : Nat) : (decodeMembersInto room members .empty).toOption =
        members.trees?.bind fun ms => putAll (putMember room) (some .empty) ms := by
      simp only [toOption_decodeMembersInto_eq, Option.bind_fun_some]
    rw [decodeMembers, Document.tree?, Option.bind_map]
    exact toOption_container htable
  | array start items =>
    rw [Document.tree?]
    -- no table is written as a list, whatever its items are
    cases items.trees? <;> rfl
  | _ => rfl

theorem commuting_putMember (room : Nat) : Commuting (putMember room) := by
  intro m m' hne table
  match m, m' with
  | (none, _), _ => exact (Option.bind_fun_none _).symm
  | (some _, _), (none, _) => exact Option.bind_fun_none _
  | (some name, t), (some other, t') =>
    have hname : name ≠ other := fun heq => hne name rfl (congrArg some heq.symm)
    simp only [putMember]
    -- a value that is refused spoils the table in either order
    cases valueMeaning room t with
    | none => cases valueMeaning room t' <;> rfl
    | some v =>
      cases valueMeaning room t' with
      | none => rfl
      | some w => exact congrArg some (table.insert_comm hname v w)

theorem regular_members : decodeMembers.Regular := by
  refine denotes_members.regular ?_
  intro t t' ht room
  cases ht with
  | inItem _ _ _ => rfl
  | members hperm hnames =>
    refine congrArg (innerRoom? room).bind (funext fun inner => ?_)
    -- members of different names may be put in in any order
    exact putAll_perm (commuting_putMember inner) hperm hnames _
  | inMember before after key ht =>
    refine congrArg (innerRoom? room).bind (funext fun inner => ?_)
    refine putAll_congr (fun table => ?_) before after _
    -- the value that differs comes under the same name on both sides, if it has one
    cases key with
    | none => rfl
    | some name => exact congrArg (Option.map _) ((stable_valueMeaning ht).1 inner)

/-! ### Fields and drafts -/

section

variable {σ α β : Type}

theorem meaning_of {name : String} {get : σ → Option α} {set : σ → α → σ} {decode : Decoder α}
    (room : Nat) (t : Tree) : (Field.of name get set decode).meaning room t =
      fun draft => (decode.meaning room t).map (set draft) :=
  funext fun _ => toOption_map _ _

/-- A field is set from what a decoder takes. -/
theorem Json.Field.Regular.of {decode : Decoder α} (h : decode.Regular) (name : String)
    (get : σ → Option α) (set : σ → α → σ) : (Field.of name get set decode).Regular where
  denotes := by
    intro room d draft
    simp only [meaning_of]
    show ((decode room d).map (set draft)).toOption = _
    rw [toOption_map, h.denotes, Option.map_bind]
    rfl
  stable := by
    intro t t' ht room draft
    rw [meaning_of, meaning_of, h.stable ht room]

/-- Fields are apart if each has a slot of the draft for itself. -/
theorem Json.Field.Apart.of {a b : String} {decode : Decoder α} {other : Decoder β}
    {get : σ → Option α} {get' : σ → Option β} {set : σ → α → σ} {set' : σ → β → σ}
    (hleft : ∀ draft v, get' (set draft v) = get' draft)
    (hright : ∀ draft v, get (set' draft v) = get draft)
    (hcomm : ∀ draft v w, set' (set draft v) w = set (set' draft w) v) :
    (Field.of a get set decode).Apart (Field.of b get' set' other) where
  left := by
    intro room t draft next hnext
    rw [meaning_of] at hnext
    obtain ⟨v, -, rfl⟩ := Option.map_eq_some_iff.1 hnext
    exact congrArg Option.isSome (hleft draft v)
  right := by
    intro room t draft next hnext
    rw [meaning_of] at hnext
    obtain ⟨v, -, rfl⟩ := Option.map_eq_some_iff.1 hnext
    exact congrArg Option.isSome (hright draft v)
  comm := by
    intro room t t' draft
    simp only [meaning_of, Option.bind_map, Function.comp_def]
    -- a refusal is one in either order, and what both take is set in slots of their own
    cases decode.meaning room t with
    | none => exact (Option.bind_fun_none _).symm
    | some v =>
      cases other.meaning room t' with
      | none => rfl
      | some w => exact congrArg some (hcomm draft v w)

end

/-! ### Records -/

/-- A string that may be left out. -/
theorem regular_optionalString : (decodeOption decodeString).Regular :=
  regular_option plain_string.regular

theorem regular_writtenType : decodeWrittenType.Regular := plain_string.regular.map _

theorem tidy_position : positionFormat.Tidy where
  nodup := by decide
  regular := by
    simp only [positionFormat, List.forall_mem_cons]
    exact ⟨.of regular_uint32 .., .of regular_uint32 .., List.forall_mem_nil _⟩
  unset := by simp [positionFormat, Field.of]
  apart := by simp [positionFormat, Field.Apart.of]

theorem regular_position : decodePosition.Regular := regular_record tidy_position

theorem tidy_located {α : Type} {decode : Decoder α} (h : decode.Regular) :
    (locatedFormat decode).Tidy where
  nodup := by
    -- the names do not depend on the decoder of the node
    show ["node", "span"].Nodup
    decide
  regular := by
    simp only [locatedFormat, List.forall_mem_cons]
    exact ⟨.of h .., .of regular_position .., List.forall_mem_nil _⟩
  unset := by simp [locatedFormat, Field.of]
  apart := by simp [locatedFormat, Field.Apart.of]

theorem regular_located {α : Type} {decode : Decoder α} (h : decode.Regular) :
    (decodeLocated decode).Regular :=
  regular_record (tidy_located h)

theorem tidy_annotation : annotationFormat.Tidy where
  nodup := by decide
  regular := by
    simp only [annotationFormat, List.forall_mem_cons]
    exact ⟨.of plain_string.regular .., .of regular_members .., List.forall_mem_nil _⟩
  unset := by simp [annotationFormat, Field.of]
  apart := by simp [annotationFormat, Field.Apart.of]

theorem regular_annotations : (decodeList decodeAnnotation).Regular :=
  regular_list (regular_record tidy_annotation)

theorem tidy_param : paramFormat.Tidy where
  nodup := by decide
  regular := by
    simp only [paramFormat, List.forall_mem_cons]
    exact ⟨.of plain_string.regular .., .of regular_writtenType .., .of regular_annotations ..,
      List.forall_mem_nil _⟩
  unset := by simp [paramFormat, Field.of]
  apart := by simp [paramFormat, Field.Apart.of]

theorem regular_params : (decodeList decodeParam).Regular :=
  regular_list (regular_record tidy_param)

theorem tidy_method : methodFormat.Tidy where
  nodup := by decide
  regular := by
    simp only [methodFormat, List.forall_mem_cons]
    exact ⟨.of plain_string.regular .., .of regular_params .., .of regular_writtenType ..,
      .of regular_annotations .., List.forall_mem_nil _⟩
  unset := by simp [methodFormat, Field.of]
  apart := by simp [methodFormat, Field.Apart.of]

theorem regular_method : decodeMethod.Regular := regular_record tidy_method

theorem tidy_type : typeFormat.Tidy where
  nodup := by decide
  regular := by
    simp only [typeFormat, List.forall_mem_cons]
    exact ⟨.of plain_string.regular .., .of (regular_variant typeKinds) ..,
      .of regular_optionalString .., .of (regular_list plain_string.regular) ..,
      .of (regular_list (regular_located regular_method)) .., List.forall_mem_nil _⟩
  unset := by simp [typeFormat, Field.of]
  apart := by simp [typeFormat, Field.Apart.of]

theorem regular_type : decodeType.Regular := regular_record tidy_type

theorem tidy_unit : unitFormat.Tidy where
  nodup := by decide
  regular := by
    simp only [unitFormat, List.forall_mem_cons]
    exact ⟨.of regular_optionalString .., .of (regular_list (regular_located regular_type)) ..,
      .of regular_optionalString .., List.forall_mem_nil _⟩
  unset := by simp [unitFormat, Field.of]
  apart := by simp [unitFormat, Field.Apart.of]

theorem tidy_program : programFormat.Tidy where
  nodup := by decide
  regular := by
    simp only [programFormat, List.forall_mem_cons]
    exact ⟨.of (regular_list (regular_record tidy_unit)) .., List.forall_mem_nil _⟩
  unset := by simp [programFormat, Field.of]
  apart := by simp [programFormat]

/-- **The decoder of declaration models** looks at the tree of a document only, and not at the order
of members. -/
theorem regular_program : decodeProgram.Regular := regular_record tidy_program

end OverrideCheck
