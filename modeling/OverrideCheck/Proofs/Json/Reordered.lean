import Mathlib.Data.List.Pairwise
import OverrideCheck.Proofs.Json.Tree

/-!
# The order of members

JSON leaves the order of the members of an object open, and no decoder of this library should see
it. A decoder is *regular* if it looks at nothing but the tree of a document, and makes the same of
a tree in which the members of some object, however deep, stand in another order.

* `Tree.Reordered` — two trees that differ in the order of the members of one object;
* `Stable`, `Regular` — functions of trees that do not see such a difference, and decoders that
  denote one;
* `Plain.regular`, `regular_option`, `regular_list`, `regular_variant` — the decoders of plain
  values, options, lists and variants are regular.

An object that repeats a name is left out of this, because in a table of members the last value of a
name counts. Names that cannot be decoded are told apart by nothing and are no hindrance either.
-/

namespace OverrideCheck.Json

/-- The trees differ in the order of the members of one object, in which no name is repeated. -/
inductive Tree.Reordered : Tree → Tree → Prop
  | members {ms ms' : List (Option String × Tree)} (hperm : ms.Perm ms')
    (hnames : (ms.filterMap Prod.fst).Nodup) : Tree.Reordered (.object ms) (.object ms')
  | inItem (before after : List Tree) {t t' : Tree} (h : Tree.Reordered t t') :
    Tree.Reordered (.array (before ++ t :: after)) (.array (before ++ t' :: after))
  | inMember (before after : List (Option String × Tree)) (key : Option String) {t t' : Tree}
    (h : Tree.Reordered t t') :
    Tree.Reordered (.object (before ++ (key, t) :: after)) (.object (before ++ (key, t') :: after))

/-- The members do not have the same name. -/
def NamesDiffer (m m' : Option String × Tree) : Prop := ∀ name, m.1 = some name → m'.1 ≠ some name

instance : Std.Symm NamesDiffer where
  symm := fun _ _ h name hname hother => h name hother hname

/-- Two members of an object that repeats no name have different names. -/
theorem namesDiffer_of_nodup {ms : List (Option String × Tree)}
    (hnames : (ms.filterMap Prod.fst).Nodup) {m m' : Option String × Tree} (hm : m ∈ ms)
    (hm' : m' ∈ ms) (hne : m ≠ m') : NamesDiffer m m' := by
  have hpairs : ms.Pairwise NamesDiffer := by
    refine (List.pairwise_filterMap.1 hnames).imp ?_
    intro m m' h name hname hother
    exact h name hname name hother rfl
  -- either of the two may stand first, since to have different names is symmetric
  exact hpairs.forall hm hm' hne

section

variable {α β κ : Type} {decode : Decoder α} {f : Nat → Tree → Option α}

/-- The order of the members of an object makes no difference. -/
def Stable (f : Nat → Tree → Option α) : Prop :=
  ∀ {t t' : Tree}, t.Reordered t' → ∀ room, f room t = f room t'

/-- A decoder of trees that does not see the order of members. -/
structure Decoder.Regular (decode : Decoder α) : Prop where
  denotes : Denotes decode decode.meaning
  stable : Stable decode.meaning

/-- Decoders that take the same documents as the same values denote the same. -/
theorem Denotes.congr {other : Decoder α} (h : Denotes decode f)
    (hagree : ∀ room d, (other room d).toOption = (decode room d).toOption) : Denotes other f := by
  intro room d
  rw [hagree, h]

/-- What a decoder denotes is enough to know. -/
theorem Denotes.regular (h : Denotes decode f) (hstable : Stable f) : decode.Regular where
  denotes := h.meaning
  stable := by
    intro t t' ht room
    rw [h.meaning_eq, h.meaning_eq, hstable ht room]

theorem Decoder.Regular.congr {other : Decoder α} (h : decode.Regular)
    (hagree : ∀ room d, (other room d).toOption = (decode room d).toOption) : other.Regular :=
  (h.denotes.congr hagree).regular h.stable

theorem Decoder.Regular.map (h : decode.Regular) (g : α → β) :
    Decoder.Regular fun room d => (decode room d).map g := by
  refine (h.denotes.map g).regular ?_
  intro t t' ht room
  exact congrArg (Option.map g) (h.stable ht room)

/-- A plain value has no members. -/
theorem Plain.regular (h : Plain decode) : decode.Regular := by
  refine h.denotes.regular ?_
  intro t t' ht room
  cases ht with
  | members _ _ => exact (h.object ..).trans (h.object ..).symm
  | inItem _ _ _ => exact (h.array ..).trans (h.array ..).symm
  | inMember _ _ _ _ => exact (h.object ..).trans (h.object ..).symm

theorem regular_option (h : decode.Regular) : Decoder.Regular (decodeOption decode) := by
  refine (denotes_option h.denotes).regular ?_
  intro t t' ht room
  have hsome := congrArg (Option.map some) (h.stable ht room)
  -- no container is `null`
  cases ht <;> exact hsome

theorem listMeaning_congr {t t' : Tree} (h : ∀ room, f room t = f room t')
    (before after : List Tree) (room : Nat) :
    listMeaning f room (.array (before ++ t :: after)) =
      listMeaning f room (.array (before ++ t' :: after)) := by
  refine congrArg (innerRoom? room).bind (funext fun inner => ?_)
  rw [List.mapM_append, List.mapM_append, List.mapM_cons, List.mapM_cons, h inner]

theorem regular_list (h : decode.Regular) : Decoder.Regular (decodeList decode) := by
  refine (denotes_list h.denotes).regular ?_
  intro t t' ht room
  -- objects are lists in no order, so the trees differ inside an item
  cases ht with
  | members _ _ => rfl
  | inMember _ _ _ _ => rfl
  | inItem before after ht => exact listMeaning_congr (h.stable ht) before after room

/-! ### Variants -/

theorem taggedMeaning_eq_none {variants : List (String × κ)} {content : κ → Nat → Tree → Option β}
    {room : Nat} {ms : List (Option String × Tree)} (h : ms.length ≠ 1) :
    taggedMeaning variants content room ms = none := by
  match ms with
  | [] => rfl
  | [_] => exact absurd rfl h
  | (none, _) :: _ :: _ => rfl
  | (some _, _) :: _ :: _ => rfl

/-- The one member of a variant has only one order. -/
theorem taggedMeaning_perm {variants : List (String × κ)} {content : κ → Nat → Tree → Option β}
    {room : Nat} {ms ms' : List (Option String × Tree)} (h : ms.Perm ms') :
    taggedMeaning variants content room ms = taggedMeaning variants content room ms' := by
  by_cases hlength : ms.length = 1
  · obtain ⟨m, rfl⟩ := List.length_eq_one_iff.1 hlength
    rw [List.perm_singleton.1 h.symm]
  · rw [taggedMeaning_eq_none hlength, taggedMeaning_eq_none (h.length_eq ▸ hlength)]

/-- Contents that are taken alike make variants that are taken alike. -/
theorem taggedMeaning_congr {variants : List (String × κ)} {content : κ → Nat → Tree → Option β}
    {room : Nat} {t t' : Tree} (h : ∀ variant, content variant room t = content variant room t')
    (before after : List (Option String × Tree)) (key : Option String) :
    taggedMeaning variants content room (before ++ (key, t) :: after) =
      taggedMeaning variants content room (before ++ (key, t') :: after) := by
  -- with another member beside it neither is a variant
  match before, after, key with
  | [], [], none => rfl
  | [], [], some word =>
    show ((variants.lookup word).bind fun variant => content variant room t) =
      (variants.lookup word).bind fun variant => content variant room t'
    simp only [h]
  | [], _ :: _, _ => rw [taggedMeaning_eq_none (by simp), taggedMeaning_eq_none (by simp)]
  | _ :: _, _, _ => rw [taggedMeaning_eq_none (by simp), taggedMeaning_eq_none (by simp)]

theorem regular_variant (variants : List (String × κ)) :
    Decoder.Regular (decodeVariant variants) := by
  refine (denotes_variant variants).regular ?_
  intro t t' ht room
  cases ht with
  | inItem _ _ _ => rfl
  | members hperm _ =>
    refine congrArg (innerRoom? room).bind (funext fun inner => ?_)
    exact taggedMeaning_perm hperm
  | inMember before after key ht =>
    refine congrArg (innerRoom? room).bind (funext fun inner => ?_)
    refine taggedMeaning_congr (fun variant => ?_) before after key
    -- the content of a variant without values is a null, whatever order its members would have
    rw [plain_null.regular.stable ht inner]

end

end OverrideCheck.Json
