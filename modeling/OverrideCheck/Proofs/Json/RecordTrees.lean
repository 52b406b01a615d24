import Mathlib.Data.Option.Basic
import OverrideCheck.Proofs.Json.Reordered

/-!
# Records and tables on trees

The members of an object are put into a draft one after the other, and each may be refused. What
comes out does not depend on their order as long as putting in two members of different names can be
done in either order.

* `putAll` — members put into a draft, one after the other;
* `Commuting`, `putAll_perm` — when the order of members makes no difference, and that it then does
  not;
* `RecordFormat.put` — what a record does with a member;
* `Field.Regular`, `Field.Apart` — fields that read trees only, and fields that do not touch each
  other;
* `commuting_put`, `regular_record` — if all fields of a record are such fields, putting in its
  members commutes, and its decoder is regular.

The reason why records commute is that a field looks at whether it is set, but at no other field.
-/

namespace OverrideCheck.Json

section

variable {σ α : Type} {put : σ → Option String × Tree → Option σ}

/-- Puts members into a draft, one after the other, until one is refused. -/
def putAll (put : σ → Option String × Tree → Option σ) (draft? : Option σ)
    (ms : List (Option String × Tree)) : Option σ :=
  ms.foldl (fun draft? m => draft?.bind fun draft => put draft m) draft?

@[simp] theorem putAll_nil (draft? : Option σ) : putAll put draft? [] = draft? := rfl

@[simp] theorem putAll_cons (draft? : Option σ) (m : Option String × Tree)
    (ms : List (Option String × Tree)) :
    putAll put draft? (m :: ms) = putAll put (draft?.bind fun draft => put draft m) ms := rfl

theorem putAll_append (draft? : Option σ) (ms ms' : List (Option String × Tree)) :
    putAll put draft? (ms ++ ms') = putAll put (putAll put draft? ms) ms' :=
  List.foldl_append

/-- What was refused stays refused. -/
@[simp] theorem putAll_none (ms : List (Option String × Tree)) : putAll put none ms = none := by
  induction ms with
  | nil => rfl
  | cons m ms ih => exact ih

theorem putAll_eq_bind (draft? : Option σ) (ms : List (Option String × Tree)) :
    putAll put draft? ms = draft?.bind fun draft => putAll put (some draft) ms := by
  cases draft? with
  | none => exact putAll_none ms
  | some draft => rfl

/-- Members of different names can be put in in either order. -/
def Commuting (put : σ → Option String × Tree → Option σ) : Prop :=
  ∀ {m m'}, NamesDiffer m m' → ∀ draft,
    ((put draft m).bind fun next => put next m') = (put draft m').bind fun next => put next m

/-- The order of the members of an object makes no difference if no name is repeated. -/
theorem putAll_perm (hput : Commuting put) {ms ms' : List (Option String × Tree)}
    (hperm : ms.Perm ms') (hnames : (ms.filterMap Prod.fst).Nodup) (draft? : Option σ) :
    putAll put draft? ms = putAll put draft? ms' := by
  -- a fold does not see the order if any two of its steps commute
  refine hperm.foldl_eq' (fun m hm m' hm' draft? => ?_) draft?
  by_cases heq : m = m'
  · rw [heq]
  · cases draft? with
    | none => rfl
    | some draft => exact hput (namesDiffer_of_nodup hnames hm hm' heq) draft

/-- A member can be put in after others of different names. -/
theorem putAll_cons_comm (hput : Commuting put) {m : Option String × Tree}
    {ms : List (Option String × Tree)} (h : ∀ m' ∈ ms, NamesDiffer m m') (draft? : Option σ) :
    putAll put draft? (m :: ms) = (putAll put draft? ms).bind fun draft => put draft m := by
  induction ms generalizing draft? with
  | nil => rfl
  | cons m' ms ih =>
    -- the member changes place with the next one, and then with the rest
    have hswap : ((draft?.bind fun draft => put draft m).bind fun draft => put draft m') =
        (draft?.bind fun draft => put draft m').bind fun draft => put draft m := by
      cases draft? with
      | none => rfl
      | some draft => exact hput (h m' List.mem_cons_self) draft
    rw [putAll_cons, putAll_cons, hswap, putAll_cons,
      ← ih fun other hother => h other (List.mem_cons_of_mem _ hother), putAll_cons]

/-- Members that are put in alike may take each other's place. -/
theorem putAll_congr {m m' : Option String × Tree} (h : ∀ draft, put draft m = put draft m')
    (before after : List (Option String × Tree)) (draft? : Option σ) :
    putAll put draft? (before ++ m :: after) = putAll put draft? (before ++ m' :: after) := by
  simp only [putAll_append, putAll_cons, h]

/-- The members of an object are put in one by one, whatever is done in the end. -/
theorem bind_putAll_cons (key : Key) (value : Document) (settled : Nat) (rest : Members) (draft : σ)
    (finish : σ → Option α) :
    ((Members.cons key value settled rest).trees?.bind fun ms =>
        (putAll put (some draft) ms).bind finish) =
      value.tree?.bind fun t => (put draft (key.text.toOption, t)).bind fun next =>
        rest.trees?.bind fun ms => (putAll put (some next) ms).bind finish := by
  rw [Members.trees?]
  cases value.tree? with
  | none => rfl
  | some t =>
    simp only [Option.bind_some, Option.bind_map, Function.comp_def, putAll_cons]
    cases put draft (key.text.toOption, t) with
    | none => simp only [putAll_none, Option.bind_none, Option.bind_fun_none]
    | some next => rfl

end

/-! ### Fields -/

section

variable {σ α : Type} {f : RecordFormat σ α}

/-- What a field makes of a tree. -/
def Field.meaning (field : Field σ) (room : Nat) (t : Tree) (draft : σ) : Option σ :=
  (field.read room t.document draft).toOption

/-- A field that reads trees and does not see the order of members. -/
structure Field.Regular (field : Field σ) : Prop where
  denotes : ∀ room d draft, (field.read room d draft).toOption =
    d.tree?.bind fun t => field.meaning room t draft
  stable : ∀ {t t' : Tree}, t.Reordered t' → ∀ room draft,
    field.meaning room t draft = field.meaning room t' draft

/-- Two fields that do not touch each other. -/
structure Field.Apart (a b : Field σ) : Prop where
  left : ∀ {room t draft next}, a.meaning room t draft = some next → b.isSet next = b.isSet draft
  right : ∀ {room t draft next}, b.meaning room t draft = some next → a.isSet next = a.isSet draft
  comm : ∀ room t t' draft, (a.meaning room t draft).bind (b.meaning room t') =
    (b.meaning room t' draft).bind (a.meaning room t)

instance : Std.Symm (@Field.Apart σ) where
  symm := fun _ _ h => ⟨h.right, h.left, fun room t t' draft => (h.comm room t' t draft).symm⟩

/-- A field that leaves another alone may be read before it is seen whether that one is set. -/
theorem Field.bind_unset {a b : Field σ} {room : Nat} {t t' : Tree} {draft : σ}
    (h : ∀ next, a.meaning room t draft = some next → b.isSet next = b.isSet draft) :
    ((if a.isSet draft then none else a.meaning room t draft).bind fun next =>
        if b.isSet next then none else b.meaning room t' next) =
      if a.isSet draft || b.isSet draft then none
      else (a.meaning room t draft).bind (b.meaning room t') := by
  cases a.isSet draft with
  | true => rfl
  | false =>
    rw [Bool.false_or, if_neg Bool.false_ne_true]
    -- whether `b` is set may be asked of the draft before `a` was read
    have hsame : ((a.meaning room t draft).bind fun next =>
          if b.isSet next then none else b.meaning room t' next) =
        (a.meaning room t draft).bind fun next =>
          if b.isSet draft then none else b.meaning room t' next :=
      Option.bind_congr fun next hnext => by rw [h next hnext]
    refine hsame.trans ?_
    cases b.isSet draft with
    | true => exact Option.bind_fun_none _
    | false => rfl

theorem Field.Apart.comm_unset {a b : Field σ} (h : a.Apart b) (room : Nat) (t t' : Tree)
    (draft : σ) :
    ((if a.isSet draft then none else a.meaning room t draft).bind fun next =>
        if b.isSet next then none else b.meaning room t' next) =
      (if b.isSet draft then none else b.meaning room t' draft).bind fun next =>
        if a.isSet next then none else a.meaning room t next := by
  rw [Field.bind_unset fun _ => h.left, Field.bind_unset fun _ => h.right, Bool.or_comm, h.comm]

namespace RecordFormat

/-- What a record does with a member. -/
def put (f : RecordFormat σ α) (room : Nat) (draft : σ) : Option String × Tree → Option σ
  | (none, _) => none
  | (some name, t) =>
    match f.fields.find? fun field => field.name == name with
    | none => if f.lenient then some draft else none
    | some field => if field.isSet draft then none else field.meaning room t draft

/-- What a record does with the items of a list. -/
def putItems (room : Nat) : List (Field σ) → List Tree → σ → Option σ
  | _, [], draft => some draft
  | [], _ :: _, _ => none
  | field :: fields, t :: ts, draft => (field.meaning room t draft).bind (putItems room fields ts)

/-- The record of a draft. -/
def result (f : RecordFormat σ α) (draft : σ) : Option α := (f.finish draft).toOption

/-- What the decoder of a record makes of a tree. -/
def meaning (f : RecordFormat σ α) (room : Nat) : Tree → Option α
  | .object ms =>
    (innerRoom? room).bind fun room => (putAll (f.put room) (some f.start) ms).bind f.result
  | .array ts =>
    (innerRoom? room).bind fun room => (putItems room f.fields ts f.start).bind f.result
  | _ => none

end RecordFormat

/-! ### The trees of records -/

theorem toOption_readMembers_eq (h : ∀ field ∈ f.fields, field.Regular) (room : Nat) :
    ∀ members draft, (f.readMembers room members draft).toOption =
      members.trees?.bind fun ms => (putAll (f.put room) (some draft) ms).bind f.result
  | .closed _, draft => by
    rw [RecordFormat.readMembers]
    show _ = (f.finish draft).toOption
    cases f.finish draft <;> rfl
  | .broken _, _ => rfl
  | .cons ⟨.error _, _, _⟩ value _ rest, draft => by
    rw [bind_putAll_cons]
    show none = value.tree?.bind fun _ => none
    rw [Option.bind_fun_none]
  | .cons ⟨.ok name, stop, keySettled⟩ value settled rest, draft => by
    have hrest := toOption_readMembers_eq h room rest
    rw [bind_putAll_cons, RecordFormat.readMembers]
    show _ = value.tree?.bind fun t => (f.put room draft (some name, t)).bind _
    simp only [← hrest, RecordFormat.put]
    cases hfind : f.fields.find? fun field => field.name == name with
    | none =>
      cases hlenient : f.lenient with
      | false => exact (Option.bind_fun_none _).symm
      | true =>
        -- an unknown member is passed over if it is complete
        have hskip := isSome_tree?_iff value
        cases hvalue : value.tree? with
        | none =>
          rw [hvalue] at hskip
          cases hfault : value.skipFault? with
          | none => exact absurd (hskip.2 hfault) Bool.false_ne_true
          | some fault => rfl
        | some t =>
          rw [hvalue] at hskip
          simp only [if_true, hskip.1 rfl]
          rfl
    | some field =>
      cases hset : field.isSet draft with
      | true =>
        -- a field given twice is refused before the second value is looked at, so also if that one
        -- breaks off
        simp only [hset, if_true]
        exact (Option.bind_fun_none _).symm
      | false =>
        have hread := (h field (List.mem_of_find?_eq_some hfind)).denotes room value draft
        simp only [hset, Bool.false_eq_true, if_false]
        rw [← Option.bind_assoc, ← hread]
        cases field.read room value draft <;> rfl

theorem toOption_readItems_eq (room : Nat) : ∀ (fields : List (Field σ)),
    (∀ field ∈ fields, field.Regular) → ∀ (count : Nat) (items : Items) (draft : σ),
      (f.readItems room count fields items draft).toOption =
        items.trees?.bind fun ts => (RecordFormat.putItems room fields ts draft).bind f.result
  | fields, _, count, .closed stop, draft => by
    have hresult : (f.readItems room count fields (.closed stop) draft).toOption =
        f.result draft := by
      unfold RecordFormat.result
      cases fields <;> rw [RecordFormat.readItems] <;> cases f.finish draft <;> rfl
    rw [hresult, Items.trees?, Option.bind_some]
    cases fields <;> rfl
  | [], _, _, .broken _, _ => rfl
  | [], _, _, .cons item _ rest, _ => by
    -- there are more items than fields
    show none = (item.tree?.bind fun t => rest.trees?.map (t :: ·)).bind _
    cases item.tree? with
    | none => rfl
    | some t => cases rest.trees? <;> rfl
  | _ :: _, _, _, .broken _, _ => rfl
  | field :: fields, h, count, .cons item settled rest, draft => by
    have hread := (h field List.mem_cons_self).denotes room item draft
    have hrest := toOption_readItems_eq room fields
      (fun other hother => h other (List.mem_cons_of_mem _ hother)) (count + 1) rest
    rw [RecordFormat.readItems, Items.trees?]
    -- the trees of the items after it may be asked for when the field has taken its own
    have hputItems : ((item.tree?.bind fun t => rest.trees?.map (t :: ·)).bind fun ts =>
        (RecordFormat.putItems room (field :: fields) ts draft).bind f.result) =
        (item.tree?.bind fun t => field.meaning room t draft).bind fun next =>
          rest.trees?.bind fun ts => (RecordFormat.putItems room fields ts next).bind f.result := by
      cases item.tree? with
      | none => rfl
      | some t =>
        simp only [Option.bind_some, Option.bind_map, Function.comp_def, RecordFormat.putItems,
          Option.bind_assoc]
        exact Option.bind_comm _ _
    rw [hputItems, ← hread]
    simp only [← hrest]
    cases field.read room item draft <;> rfl

theorem denotes_record (h : ∀ field ∈ f.fields, field.Regular) :
    Denotes (decodeRecord f) f.meaning := by
  intro room d
  cases d with
  | object start members =>
    rw [decodeRecord, Document.tree?, Option.bind_map]
    exact toOption_container fun room => toOption_readMembers_eq h room members f.start
  | array start items =>
    rw [decodeRecord, Document.tree?, Option.bind_map]
    exact toOption_container fun room => toOption_readItems_eq room f.fields h 0 items f.start
  | _ => rfl

/-! ### The order of the members of a record -/

/-- Different names lead to fields that do not touch each other. -/
theorem apart_of_find? (h : f.fields.Pairwise Field.Apart) {name name' : String}
    (hne : name ≠ name') {a b : Field σ}
    (ha : (f.fields.find? fun field => field.name == name) = some a)
    (hb : (f.fields.find? fun field => field.name == name') = some b) : a.Apart b := by
  have hname : a.name = name := by simpa using List.find?_some ha
  have hname' : b.name = name' := by simpa using List.find?_some hb
  refine h.forall (List.mem_of_find?_eq_some ha) (List.mem_of_find?_eq_some hb) ?_
  rintro rfl
  exact hne (hname.symm.trans hname')

/-- Putting in members of different names commutes, because they go into fields that do not touch
each other, or into none. -/
theorem commuting_put (h : f.fields.Pairwise Field.Apart) (room : Nat) :
    Commuting (f.put room) := by
  intro m m' hne draft
  match m, m' with
  -- a name that cannot be decoded is refused, be it before the other member or after it
  | (none, _), m' => exact (Option.bind_fun_none _).symm
  | (some _, _), (none, _) => exact Option.bind_fun_none _
  | (some name, t), (some name', t') =>
    simp only [RecordFormat.put]
    cases hfind : f.fields.find? fun field => field.name == name with
    | none => cases f.lenient <;> simp
    | some a =>
      cases hfind' : f.fields.find? fun field => field.name == name' with
      | none => cases f.lenient <;> simp
      | some b =>
        have hname : name ≠ name' := fun heq => hne name rfl (congrArg some heq.symm)
        exact (apart_of_find? h hname hfind hfind').comm_unset room t t' draft

/-- Items that are taken alike by every field may take each other's place. -/
theorem putItems_congr {room : Nat} {t t' : Tree} (after : List Tree) :
    ∀ fields : List (Field σ),
      (∀ field ∈ fields, ∀ draft, field.meaning room t draft = field.meaning room t' draft) →
        ∀ (before : List Tree) (draft : σ),
          RecordFormat.putItems room fields (before ++ t :: after) draft =
            RecordFormat.putItems room fields (before ++ t' :: after) draft
  | [], _, [], _ | [], _, _ :: _, _ => rfl
  | field :: fields, h, [], draft => by
    -- the field whose turn it is takes the two items alike
    show (field.meaning room t draft).bind _ = (field.meaning room t' draft).bind _
    rw [h field List.mem_cons_self]
  | field :: fields, h, item :: before, draft => by
    show (field.meaning room item draft).bind _ = (field.meaning room item draft).bind _
    -- a field before it takes an item that has not changed, and hands on one and the same draft
    congr 1
    funext next
    exact putItems_congr after fields (fun other hother => h other (List.mem_cons_of_mem _ hother))
      before next

theorem put_congr (h : ∀ field ∈ f.fields, field.Regular) {t t' : Tree} (ht : t.Reordered t')
    (key : Option String) (room : Nat) (draft : σ) :
    f.put room draft (key, t) = f.put room draft (key, t') := by
  match key with
  | none => rfl
  | some name =>
    simp only [RecordFormat.put]
    cases hfind : f.fields.find? fun field => field.name == name with
    | none => rfl
    | some field => simp only [(h field (List.mem_of_find?_eq_some hfind)).stable ht]

/-- The fields of the record have different names, are not set in the beginning, are regular and do
not touch each other. -/
structure RecordFormat.Tidy (f : RecordFormat σ α) : Prop where
  nodup : f.fieldNames.Nodup
  unset : ∀ field ∈ f.fields, field.isSet f.start = false
  regular : ∀ field ∈ f.fields, field.Regular
  apart : f.fields.Pairwise Field.Apart

/-- **The decoder of a tidy record is regular.** -/
theorem regular_record (h : f.Tidy) : Decoder.Regular (decodeRecord f) := by
  refine (denotes_record h.regular).regular ?_
  intro t t' ht room
  -- an object given in another order, or a change inside a list or an object
  cases ht with
  | members hperm hnames =>
    refine congrArg (innerRoom? room).bind (funext fun inner => ?_)
    rw [putAll_perm (commuting_put h.apart inner) hperm hnames]
  | inItem before after ht =>
    refine congrArg (innerRoom? room).bind (funext fun inner => ?_)
    rw [putItems_congr after f.fields fun field hfield => (h.regular field hfield).stable ht inner]
  | inMember before after key ht =>
    refine congrArg (innerRoom? room).bind (funext fun inner => ?_)
    rw [putAll_congr fun draft => put_congr h.regular ht key inner draft]

end

end OverrideCheck.Json
