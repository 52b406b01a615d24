import Mathlib.Data.Option.Basic
import OverrideCheck.Json.Decode
import OverrideCheck.Proofs.Json.Decoding
import OverrideCheck.Proofs.Json.Scanning

/-!
# What is left of a document without its places

A decoder is handed a document, which keeps the bytes that every part of it covers. None of that
matters to whether the document is taken and as what. The tree of a document is what does matter:
its strings, literals, lists and objects, the latter with their members in the order given.

* `Tree`, `Document.tree?`, `treeOf?` — trees, the tree of a document, and that of a text;
* `treeOf?_compact` — the text of a value has the tree of the value;
* `Denotes` — a decoder takes a document if it is complete and a function takes its tree;
* `Decoder.meaning` — that function, read off a document of the tree that has no places;
* `Plain.denotes`, `denotes_option`, `denotes_list`, `denotes_variant` — what the decoders of plain
  values, options, lists and variants denote;
* `isSome_tree?_iff` — the documents that can be skipped are those that have a tree;
* `Denotes.toOption_decodeText` — what is made of a text depends on its tree only.

A string that cannot be decoded and a number out of range have a place in the tree, because they are
no fault of a value that is skipped. A document that breaks off has no tree; that no decoder takes
such a document is part of what `Denotes` says.
-/

namespace OverrideCheck.Json

/-- A document without places. -/
inductive Tree
  /-- A string; `none` if it cannot be decoded. -/
  | string (text : Option String)
  /-- A word or a number; `none` if it is out of range. -/
  | literal (value : Option Literal)
  | array (items : List Tree)
  | object (members : List (Option String × Tree))

mutual

/-- The tree of a document that is complete. -/
def Document.tree? : Document → Option Tree
  | .string _ _ text => some (.string text.toOption)
  | .literal _ _ value => some (.literal value.toOption)
  | .array _ items => items.trees?.map .array
  | .object _ members => members.trees?.map .object
  | .cutString .. | .cutLiteral .. | .absent _ => none

/-- The trees of the items of a list. -/
def Items.trees? : Items → Option (List Tree)
  | .closed _ => some []
  | .broken _ => none
  | .cons item _ rest => item.tree?.bind fun t => rest.trees?.map (t :: ·)

/-- The members of an object with their trees. -/
def Members.trees? : Members → Option (List (Option String × Tree))
  | .closed _ => some []
  | .broken _ => none
  | .cons key value _ rest =>
    value.tree?.bind fun t => rest.trees?.map ((key.text.toOption, t) :: ·)

end

/-- The tree of a text, if the text is one complete document. -/
def treeOf? (text : String) : Option Tree :=
  match (Reading.ofText text).trailing with
  | some _ => none
  | none => (Reading.ofText text).root.tree?

/-! ### The trees of values -/

mutual

/-- The tree of a value. -/
def Value.tree : Value → Tree
  | .null => .literal (some .null)
  | .boolean value => .literal (some (.boolean value))
  | .integer value => .literal (some (.number (.integer value)))
  | .string text => .string (some text)
  | .array items => .array (itemTrees items)
  | .object members => .object (memberTrees members)

def itemTrees : List Value → List Tree
  | [] => []
  | item :: rest => item.tree :: itemTrees rest

def memberTrees : List (String × Value) → List (Option String × Tree)
  | [] => []
  | (name, value) :: rest => (some name, value.tree) :: memberTrees rest

end

mutual

/-- What stands for a value has its tree. -/
theorem Document.StandsFor.tree?_eq {d : Document} {v : Value} (h : d.StandsFor v) :
    d.tree? = some v.tree := by
  cases h with
  | null | boolean | integer | string => rfl
  | array start hitems => rw [Document.tree?, hitems.trees?_eq, Value.tree, Option.map_some]
  | object start hmembers => rw [Document.tree?, hmembers.trees?_eq, Value.tree, Option.map_some]

theorem Items.StandFor.trees?_eq {items : Items} {values : List Value}
    (h : items.StandFor values) : items.trees? = some (itemTrees values) := by
  cases h with
  | closed _ => rfl
  | cons settled hitem hrest => rw [Items.trees?, hitem.tree?_eq, hrest.trees?_eq]; rfl

theorem Members.StandFor.trees?_eq {members : Members} {values : List (String × Value)}
    (h : members.StandFor values) : members.trees? = some (memberTrees values) := by
  cases h with
  | closed _ => rfl
  | cons _ _ _ _ hitem hrest => rw [Members.trees?, hitem.tree?_eq, hrest.trees?_eq]; rfl

end

/-- The text of a value has the tree of the value. -/
theorem treeOf?_compact {v : Value} (h : v.InRange) : treeOf? v.compact = some v.tree := by
  obtain ⟨hroot, htrailing⟩ := ofText_compact h
  -- nothing follows the value in its own text, so its root is all there is
  rw [treeOf?, htrailing]
  exact hroot.tree?_eq

/-! ### A document for every tree -/

/-- What was read, or a fault where nothing is left of it. -/
def orFault {α : Type} : Option α → Except Fault α
  | some a => .ok a
  | none => .error ⟨0, .expectedValue⟩

@[simp] theorem toOption_orFault {α : Type} (a : Option α) : (orFault a).toOption = a := by
  cases a <;> rfl

mutual

/-- A document of the given tree, all of whose parts stand at the start. -/
def Tree.document : Tree → Document
  | .string text => .string 0 0 (orFault text)
  | .literal value => .literal 0 0 (orFault value)
  | .array items => .array 0 (itemsOf items)
  | .object members => .object 0 (membersOf members)

def itemsOf : List Tree → Items
  | [] => .closed 0
  | t :: rest => .cons t.document 0 (itemsOf rest)

def membersOf : List (Option String × Tree) → Members
  | [] => .closed 0
  | (key, t) :: rest => .cons ⟨orFault key, 0, 0⟩ t.document 0 (membersOf rest)

end

mutual

@[simp] theorem Tree.tree?_document : ∀ t : Tree, t.document.tree? = some t
  | .string text => by rw [Tree.document, Document.tree?, toOption_orFault]
  | .literal value => by rw [Tree.document, Document.tree?, toOption_orFault]
  | .array items => by rw [Tree.document, Document.tree?, trees?_itemsOf items]; rfl
  | .object members => by rw [Tree.document, Document.tree?, trees?_membersOf members]; rfl

theorem trees?_itemsOf : ∀ ts : List Tree, (itemsOf ts).trees? = some ts
  | [] => rfl
  | t :: rest => by
    rw [itemsOf, Items.trees?, t.tree?_document, trees?_itemsOf rest]
    rfl

theorem trees?_membersOf : ∀ ms : List (Option String × Tree), (membersOf ms).trees? = some ms
  | [] => rfl
  | (key, t) :: rest => by
    rw [membersOf, Members.trees?, t.tree?_document, trees?_membersOf rest, toOption_orFault]
    rfl

end

/-! ### Decoders and trees -/

section

variable {α β : Type} {decode : Decoder α} {f : Nat → Tree → Option α}

/-- A decoder takes exactly the complete documents whose trees the function takes, and as the same
value. -/
def Denotes (decode : Decoder α) (f : Nat → Tree → Option α) : Prop :=
  ∀ room d, (decode room d).toOption = d.tree?.bind (f room)

/-- What a decoder makes of a tree. -/
def Decoder.meaning (decode : Decoder α) (room : Nat) (t : Tree) : Option α :=
  (decode room t.document).toOption

/-- A decoder denotes at most one function. -/
theorem Denotes.meaning_eq (h : Denotes decode f) (room : Nat) (t : Tree) :
    decode.meaning room t = f room t := by
  unfold Decoder.meaning
  rw [h, t.tree?_document]
  rfl

theorem Denotes.meaning (h : Denotes decode f) : Denotes decode decode.meaning := by
  intro room d
  rw [h room d]
  -- whatever function is denoted agrees with what is made of documents without places
  congr 1
  funext t
  exact (h.meaning_eq room t).symm

theorem toOption_bind {ε : Type} (result : Except ε α) (next : α → Except ε β) :
    (result >>= next).toOption = result.toOption.bind fun a => (next a).toOption := by
  cases result <;> rfl

theorem Denotes.map (h : Denotes decode f) (g : α → β) :
    Denotes (fun room d => (decode room d).map g) fun room t => (f room t).map g := by
  intro room d
  rw [toOption_map, h room d, Option.map_bind]
  rfl

/-! ### Plain values -/

/-- A decoder that takes strings and literals only, wherever they stand. -/
structure Plain (decode : Decoder α) : Prop where
  string : ∀ room start stop text, (decode room (.string start stop text)).toOption =
    (decode room (.string 0 0 (orFault text.toOption))).toOption
  literal : ∀ room start stop value, (decode room (.literal start stop value)).toOption =
    (decode room (.literal 0 0 (orFault value.toOption))).toOption
  -- the decoders of plain values refuse all else without looking into it
  array : ∀ room start items, (decode room (.array start items)).toOption = none := by
    exact fun _ _ _ => rfl
  object : ∀ room start members, (decode room (.object start members)).toOption = none := by
    exact fun _ _ _ => rfl
  cutString : ∀ room start breach, (decode room (.cutString start breach)).toOption = none := by
    exact fun _ _ _ => rfl
  cutLiteral : ∀ room start breach, (decode room (.cutLiteral start breach)).toOption = none := by
    exact fun _ _ _ => rfl
  absent : ∀ room fault, (decode room (.absent fault)).toOption = none := by
    exact fun _ _ => rfl

theorem Plain.denotes (h : Plain decode) : Denotes decode decode.meaning := by
  intro room d
  cases d with
  | string start stop text => exact h.string room start stop text
  | literal start stop value => exact h.literal room start stop value
  | array start items =>
    -- the list is refused, be it complete or not, and so is every list that has no places
    rw [h.array, Document.tree?, Option.bind_map, eq_comm, Option.bind_eq_none_iff]
    intro ts _
    exact h.array room 0 (itemsOf ts)
  | object start members =>
    rw [h.object, Document.tree?, Option.bind_map, eq_comm, Option.bind_eq_none_iff]
    intro ms _
    exact h.object room 0 (membersOf ms)
  | cutString start breach => exact h.cutString room start breach
  | cutLiteral start breach => exact h.cutLiteral room start breach
  | absent fault => exact h.absent room fault

theorem plain_string : Plain decodeString where
  string := fun _ _ _ text => by cases text <;> rfl
  literal := fun _ _ _ value => by rcases value with _ | (_ | _ | _) <;> rfl

theorem plain_boolean : Plain decodeBoolean where
  string := fun _ _ _ text => by cases text <;> rfl
  literal := fun _ _ _ value => by rcases value with _ | (_ | _ | _) <;> rfl

theorem plain_null : Plain decodeNull where
  string := fun _ _ _ text => by cases text <;> rfl
  literal := fun _ _ _ value => by rcases value with _ | (_ | _ | _) <;> rfl

theorem plain_integer (expected : String) (low high : Int) :
    Plain (decodeInteger expected low high) where
  string := fun _ _ _ text => by cases text <;> rfl
  literal := fun _ _ _ value => by
    rcases value with _ | (_ | _ | (value | _))
    · rfl
    · rfl
    · rfl
    · -- only here is something taken, and only within the range
      show (ite _ (Except.ok value) _).toOption = (ite _ (Except.ok value) _).toOption
      by_cases h : low ≤ value ∧ value ≤ high
      · rw [if_pos h, if_pos h]
      · rw [if_neg h, if_neg h]
        rfl
    · rfl

/-! ### Options -/

/-- `null` is nothing, and any other tree is taken as before. -/
def optionMeaning (f : Nat → Tree → Option α) (room : Nat) : Tree → Option (Option α)
  | .literal (some .null) => some none
  | t => (f room t).map some

theorem denotes_option (h : Denotes decode f) :
    Denotes (decodeOption decode) (optionMeaning f) := by
  intro room d
  have hother := h.map some room d
  -- `null` apart, the decoder of the option is the one of the value
  match d with
  | .literal _ _ (.ok .null) => rfl
  | .literal _ _ (.ok (.boolean _)) => exact hother
  | .literal _ _ (.ok (.number _)) => exact hother
  | .literal _ _ (.error _) => exact hother
  | .string _ _ _ => exact hother
  | .cutString _ _ => exact hother
  | .cutLiteral _ _ => exact hother
  | .absent _ => exact hother
  | .array _ items =>
    refine Eq.trans hother ?_
    rw [Document.tree?]
    cases items.trees? <;> rfl
  | .object _ members =>
    refine Eq.trans hother ?_
    rw [Document.tree?]
    cases members.trees? <;> rfl

/-! ### Containers -/

/-- The room inside a container, if one may be opened. -/
def innerRoom? : Nat → Option Nat
  | room + 2 => some (room + 1)
  | _ => none

theorem toOption_enter (room start : Nat) : (enter room start).toOption = innerRoom? room := by
  match room with
  | 0 | 1 | room + 2 => rfl

/-- What a container holds is read with the room inside, if there is any. On trees one may first
take what it holds and then see to the room. -/
theorem toOption_container {γ : Type} {room start : Nat} {trees? : Option γ}
    {next : Nat → Except Refusal α} {g : Nat → γ → Option α}
    (h : ∀ room, (next room).toOption = trees?.bind (g room)) :
    (enter room start >>= next).toOption =
      trees?.bind fun ts => (innerRoom? room).bind fun room => g room ts := by
  -- refusals have no order on trees, so the question of room may be moved to the end
  rw [toOption_bind, toOption_enter]
  simp only [h]
  exact Option.bind_comm _ _

/-- A list is taken item by item. -/
def listMeaning (f : Nat → Tree → Option α) (room : Nat) : Tree → Option (List α)
  | .array ts => (innerRoom? room).bind fun room => ts.mapM (f room)
  | _ => none

/-- The items of a list, as far as it goes. -/
def Items.documents : Items → List Document
  | .closed _ | .broken _ => []
  | .cons item _ rest => item :: rest.documents

theorem documents_itemsOf : ∀ ts : List Tree, (itemsOf ts).documents = ts.map Tree.document
  | [] => rfl
  | t :: rest => congrArg (t.document :: ·) (documents_itemsOf rest)

theorem toOption_decodeItems_eq {room : Nat} : ∀ items : Items,
    (∀ item ∈ items.documents, (decode room item).toOption = item.tree?.bind (f room)) →
      (decodeItems decode room items).toOption = items.trees?.bind fun ts => ts.mapM (f room)
  | .closed _, _ | .broken _, _ => rfl
  | .cons item settled rest, h => by
    have hitem := h item List.mem_cons_self
    have hrest := toOption_decodeItems_eq rest fun other hother =>
      h other (List.mem_cons_of_mem _ hother)
    rw [decodeItems, Items.trees?]
    cases hdecode : decode room item with
    | error refusal =>
      -- the item is no tree, or a tree that is not taken; either way there is no list
      rw [hdecode] at hitem
      cases htree : item.tree? with
      | none => rfl
      | some t =>
        rw [htree] at hitem
        have hnone : f room t = none := hitem.symm
        show none = (rest.trees?.map _).bind _
        rw [Option.bind_map, eq_comm, Option.bind_eq_none_iff]
        intro ts _
        show (t :: ts).mapM (f room) = none
        rw [List.mapM_cons, hnone]
        rfl
    | ok a =>
      rw [hdecode] at hitem
      -- the item has a tree and is taken, so it all hangs on the rest of the list
      obtain ⟨t, htree, ha⟩ := Option.bind_eq_some_iff.1 hitem.symm
      show ((decodeItems decode room rest).map (a :: ·)).toOption = _
      rw [toOption_map, hrest, htree, Option.bind_some, Option.bind_map, Option.map_bind]
      congr 1
      funext ts
      show (ts.mapM (f room)).map (a :: ·) = (t :: ts).mapM (f room)
      rw [List.mapM_cons, ha]
      cases ts.mapM (f room) <;> rfl

/-- A list is taken if its items are. Only the items of this very list matter. -/
theorem toOption_decodeList {room : Nat} {d : Document}
    (h : ∀ start items, d = .array start items → ∀ item ∈ items.documents, ∀ room,
      (decode room item).toOption = item.tree?.bind (f room)) :
    (decodeList decode room d).toOption = d.tree?.bind (listMeaning f room) := by
  cases d with
  | array start items =>
    rw [decodeList, Document.tree?, Option.bind_map]
    exact toOption_container fun room =>
      toOption_decodeItems_eq items fun item hitem => h start items rfl item hitem room
  | object start members =>
    rw [Document.tree?]
    cases members.trees? <;> rfl
  | _ => rfl

theorem denotes_list (h : Denotes decode f) : Denotes (decodeList decode) (listMeaning f) :=
  fun _ _ => toOption_decodeList fun _ _ _ item _ room => h room item

/-! ### Skipped values -/

theorem isSome_bind_map {γ : Type} (first : Option α) (rest : Option β) (join : α → β → γ) :
    (first.bind fun a => rest.map (join a)).isSome ↔ first.isSome ∧ rest.isSome := by
  cases first <;> cases rest <;> simp

mutual

/-- A document has a tree if and only if whoever skips it meets no fault. -/
theorem isSome_tree?_iff : ∀ d : Document, d.tree?.isSome ↔ d.skipFault? = none
  | .string .. | .literal .. => by simp [Document.tree?, Document.skipFault?]
  | .cutString .. | .cutLiteral .. | .absent _ => by simp [Document.tree?, Document.skipFault?]
  | .array _ items => by
    rw [Document.tree?, Document.skipFault?, Option.isSome_map, isSome_trees?_items items]
  | .object _ members => by
    rw [Document.tree?, Document.skipFault?, Option.isSome_map, isSome_trees?_members members]

theorem isSome_trees?_items : ∀ items : Items, items.trees?.isSome ↔ items.skipFault? = none
  | .closed _ | .broken _ => by simp [Items.trees?, Items.skipFault?]
  | .cons item _ rest => by
    rw [Items.trees?, Items.skipFault?, isSome_bind_map, isSome_tree?_iff item,
      isSome_trees?_items rest, Option.orElse_eq_none]

theorem isSome_trees?_members :
    ∀ members : Members, members.trees?.isSome ↔ members.skipFault? = none
  | .closed _ | .broken _ => by simp [Members.trees?, Members.skipFault?]
  | .cons _ value _ rest => by
    rw [Members.trees?, Members.skipFault?, isSome_bind_map, isSome_tree?_iff value,
      isSome_trees?_members rest, Option.orElse_eq_none]

end

/-! ### Variants -/

/-- One member, whose name is the variant; nothing may follow it. -/
def taggedMeaning {κ : Type} (variants : List (String × κ)) (content : κ → Nat → Tree → Option β)
    (room : Nat) : List (Option String × Tree) → Option β
  | [(some word, t)] => (variants.lookup word).bind fun variant => content variant room t
  | _ => none

theorem toOption_variantOf {κ : Type} (variants : List (String × κ)) (stop : Nat) (word : String) :
    (variantOf variants stop word).toOption = variants.lookup word := by
  rw [variantOf]
  cases variants.lookup word <;> rfl

/-- Nothing may follow the content but the closing bracket. -/
theorem toOption_closeVariant (settled : Nat) (rest : Members) :
    (closeVariant settled rest).toOption =
      rest.trees?.bind fun ms => if ms.isEmpty then some () else none := by
  match rest with
  | .closed _ => rfl
  | .broken ⟨⟨offset, cause⟩, _⟩ => cases cause <;> rfl
  | .cons _ value _ rest =>
    -- another member is refused, even if it breaks off
    rw [Members.trees?]
    cases value.tree? with
    | none => rfl
    | some t => cases rest.trees? <;> rfl

theorem taggedMeaning_cons {κ : Type} (variants : List (String × κ))
    (content : κ → Nat → Tree → Option β) (room : Nat) (word : String) (t : Tree)
    (rest : List (Option String × Tree)) :
    taggedMeaning variants content room ((some word, t) :: rest) =
      (variants.lookup word).bind fun variant => (content variant room t).bind fun b =>
        if rest.isEmpty then some b else none := by
  cases rest with
  | nil => simp [taggedMeaning]
  | cons _ _ => simp [taggedMeaning]

/-- A variant is taken if its content is. Only the content of this very object matters, so that the
statement serves values that hold one another. -/
theorem toOption_decodeTagged {κ : Type} {variants : List (String × κ)} {content : κ → Decoder β}
    {g : κ → Nat → Tree → Option β} {room : Nat} (members : Members)
    (h : ∀ key value settled rest, members = .cons key value settled rest →
      ∀ variant, (content variant room value).toOption = value.tree?.bind (g variant room)) :
    (decodeTagged variants content room members).toOption =
      members.trees?.bind (taggedMeaning variants g room) := by
  match members with
  | .closed _ | .broken _ => rfl
  | .cons ⟨.error _, _, _⟩ value _ rest =>
    -- a name that cannot be decoded is no variant, whatever follows it
    show none = (value.tree?.bind fun t => rest.trees?.map ((none, t) :: ·)).bind _
    cases value.tree? with
    | none => rfl
    | some t => cases rest.trees? <;> rfl
  | .cons ⟨.ok word, stop, _⟩ value settled rest =>
    have hcontent := h _ value settled rest rfl
    -- the word is looked up, the content is read and the object is closed, in this order
    rw [decodeTagged, toOption_bind, toOption_variantOf]
    simp only [toOption_bind, hcontent, toOption_closeVariant]
    show _ = (value.tree?.bind fun t => rest.trees?.map ((some word, t) :: ·)).bind _
    cases value.tree? with
    | none => simp only [Option.bind_none, Option.bind_fun_none]
    | some t =>
      cases rest.trees? with
      | none =>
        simp only [Option.map_none, Option.bind_some, Option.bind_none, Option.bind_fun_none]
      | some ms =>
        simp only [Option.map_some, Option.bind_some, taggedMeaning_cons]
        congr 1
        funext variant
        congr 1
        funext b
        cases ms <;> rfl

/-- A word, or one member of which the content is `null`. -/
def variantMeaning {κ : Type} (variants : List (String × κ)) (room : Nat) : Tree → Option κ
  | .string (some word) => variants.lookup word
  | .object ms => (innerRoom? room).bind fun room =>
    taggedMeaning variants (fun variant room t => (decodeNull.meaning room t).map fun _ => variant)
      room ms
  | _ => none

theorem denotes_variant {κ : Type} (variants : List (String × κ)) :
    Denotes (decodeVariant variants) (variantMeaning variants) := by
  intro room d
  match d with
  | .string _ stop (.ok word) => exact toOption_variantOf variants stop word
  | .string _ _ (.error _) => rfl
  | .literal _ _ value => rfl
  | .cutString _ _ | .cutLiteral _ _ | .absent _ => rfl
  | .array _ items =>
    rw [Document.tree?]
    cases items.trees? <;> rfl
  | .object start members =>
    -- the content of a variant without fields is `null`, of which only that it was read is kept
    have hnull (variant : κ) (room : Nat) (value : Document) :
        ((decodeNull room value).map fun _ => variant).toOption =
          value.tree?.bind fun t => (decodeNull.meaning room t).map fun _ => variant :=
      plain_null.denotes.map (fun _ => variant) room value
    rw [decodeVariant, Document.tree?, Option.bind_map]
    exact toOption_container fun room =>
      toOption_decodeTagged members fun _ value _ _ _ variant => hnull variant room value

/-! ### Texts -/

/-- A text is taken if it has a tree that is taken. -/
theorem Denotes.toOption_decodeText (h : Denotes decode f) (text : String) :
    (decodeText decode text).toOption = (treeOf? text).bind (f containerRoom) := by
  have hroot := h containerRoom (Reading.ofText text).root
  unfold decodeText treeOf?
  -- text that goes on after the document is seen last here and first there, and refused by both
  cases hdecode : decode containerRoom (Reading.ofText text).root with
  | error refusal =>
    rw [hdecode] at hroot
    simp only [hdecode]
    cases (Reading.ofText text).trailing with
    | some fault => rfl
    | none => exact hroot
  | ok a =>
    rw [hdecode] at hroot
    simp only [hdecode]
    cases (Reading.ofText text).trailing with
    | some fault => rfl
    | none => exact hroot

end

end OverrideCheck.Json
