import Mathlib.Data.List.Forall2
import OverrideCheck.Json.Decode
import OverrideCheck.Proofs.Json.Meaning

/-!
# Decoding what stands for a value

What a decoder makes of a document depends on the value the document stands for and on how deep that
value is nested, never on the places of its parts.

* `Reads` — a decoder reads every document of a value as the same result if no more containers have
  to be opened than may be, and refuses it otherwise;
* `reads_list`, `reads_option` and their like — what the decoders of plain values read;
* `Field.Reads`, `Fills` — what a field reads, and how members fill a draft;
* `reads_record` — a record is read when its members fill a draft that can be finished.
-/

namespace OverrideCheck.Json

/-- A decoder reads every document of the value `v` as `a`, if no more containers have to be opened
than may be opened, and refuses it if more have to be. -/
def Reads {α : Type} (decode : Decoder α) (v : Value) (a : α) : Prop :=
  ∀ n d, d.StandsFor v → (decode (n + 1) d).toOption = if v.depth ≤ n then some a else none

section

variable {α : Type} {decode : Decoder α}

/-- A result that counts is the result. -/
theorem eq_ok_of_toOption {ε : Type} {result : Except ε α} {a : α}
    (h : result.toOption = some a) : result = .ok a := by
  cases result with
  | error e => cases h
  | ok b => exact congrArg Except.ok (Option.some.inj h)

/-- Where no result counts something is refused. -/
theorem exists_eq_error_of_toOption {ε : Type} {result : Except ε α}
    (h : result.toOption = none) : ∃ e, result = .error e := by
  cases result with
  | error e => exact ⟨e, rfl⟩
  | ok b => cases h

theorem toOption_map {β ε : Type} (f : α → β) (result : Except ε α) :
    (result.map f).toOption = result.toOption.map f := by
  cases result with
  | error e => rfl
  | ok a => rfl

/-- What is made of a result is made of what is read. -/
theorem Reads.map {β : Type} {v : Value} {a : α} (h : Reads decode v a) (f : α → β) :
    Reads (fun room d => (decode room d).map f) v (f a) := by
  intro n d hd
  rw [toOption_map, h n d hd]
  split <;> rfl

/-- Decoders that agree on the documents of a value read it alike. -/
theorem Reads.congr {other : Decoder α} {v : Value} {a : α} (h : Reads decode v a)
    (hagree : ∀ n d, d.StandsFor v → other n d = decode n d) : Reads other v a := by
  intro n d hd
  rw [hagree (n + 1) d hd, h n d hd]

/-! ### Plain values -/

theorem reads_string (s : String) : Reads decodeString (.string s) s := by
  intro n d hd
  cases hd
  simp [decodeString, Value.depth, Except.toOption]

theorem reads_boolean (b : Bool) : Reads decodeBoolean (.boolean b) b := by
  intro n d hd
  cases hd
  simp [decodeBoolean, Value.depth, Except.toOption]

theorem reads_integer (expected : String) {low high value : Int} (hlow : low ≤ value)
    (hhigh : value ≤ high) : Reads (decodeInteger expected low high) (.integer value) value := by
  intro n d hd
  cases hd
  simp [decodeInteger, Value.depth, Except.toOption, hlow, hhigh]

theorem reads_uint32 (n : UInt32) : Reads decodeUInt32 (.integer n.toNat) n := by
  -- the bounds of the reader are those of the type
  have hhigh : (n.toNat : Int) ≤ (UInt32.size - 1 : Nat) :=
    Int.ofNat_le.2 (Nat.le_pred_of_lt n.toNat_lt_size)
  have h := (reads_integer "u32" (Int.natCast_nonneg n.toNat) hhigh).map
    fun value => UInt32.ofNat value.toNat
  rwa [Int.toNat_natCast, UInt32.ofNat_toNat] at h

theorem reads_int64 (i : Int64) : Reads decodeInt64 (.integer i.toInt) i := by
  have h := (reads_integer "i64" i.minValue_le_toInt i.toInt_le).map Int64.ofInt
  rwa [Int64.ofInt_toInt] at h

/-- A word is read as its variant. -/
theorem reads_variant {variants : List (String × α)} {word : String} {a : α}
    (h : variants.lookup word = some a) : Reads (decodeVariant variants) (.string word) a := by
  intro n d hd
  cases hd
  simp [decodeVariant, variantOf, h, Value.depth, Except.toOption]

theorem reads_option_null : Reads (decodeOption decode) .null none := by
  intro n d hd
  cases hd
  simp [decodeOption, Value.depth, Except.toOption]

theorem reads_option {v : Value} {a : α} (h : Reads decode v a) (hv : v ≠ .null) :
    Reads (decodeOption decode) v (some a) := by
  intro n d hd
  -- nothing but a null is taken for an absent value
  have hsome : decodeOption decode (n + 1) d = (decode (n + 1) d).map some := by
    cases hd with
    | null => exact absurd rfl hv
    | _ => rfl
  rw [hsome]
  exact h.map some n d hd

/-! ### Lists -/

/-- Opening a container takes one of those that may be opened. -/
theorem toOption_enter_bind {β : Type} (n start : Nat) (next : Nat → Except Refusal β) :
    (enter (n + 1) start >>= next).toOption =
      match n with
      | 0 => none
      | k + 1 => (next (k + 1)).toOption := by
  cases n with
  | zero => rfl
  | succ k => rfl

/-- A step of a container: one part is read, and the rest if that was read. Nothing is read unless
both are within the depth that is left. -/
theorem toOption_step {β : Type} {first : Except Refusal α} {next : α → Except Refusal β} {a : α}
    {b : β} {depth rest n : Nat} (settled : Nat) :
    (first.toOption = if depth ≤ n then some a else none) →
    ((next a).toOption = if rest ≤ n then some b else none) →
    (match first with
      | .error refusal => .error (refusal.settle settled)
      | .ok a => next a : Except Refusal β).toOption =
      if max depth rest ≤ n then some b else none := by
  intro hfirst hnext
  -- a part that is too deep is refused, and the whole with it
  by_cases hdepth : depth ≤ n
  · rw [if_pos hdepth] at hfirst
    simp only [eq_ok_of_toOption hfirst, hnext, Nat.max_le, hdepth, true_and]
  · rw [if_neg hdepth] at hfirst
    obtain ⟨refusal, hrefusal⟩ := exists_eq_error_of_toOption hfirst
    rw [hrefusal, if_neg fun hmax => hdepth (Nat.le_trans (Nat.le_max_left _ _) hmax)]
    rfl

theorem toOption_decodeItems {values : List Value} {as : List α}
    (h : List.Forall₂ (Reads decode) values as) {items : Items} (hitems : items.StandFor values)
    (n : Nat) :
    (decodeItems decode (n + 1) items).toOption =
      if itemsDepth values ≤ n then some as else none := by
  -- along the values and what they are read as; the room is the same for all of them
  induction h generalizing items with
  | nil =>
    cases hitems
    rfl
  | @cons v a _ _ hvalue _ ih =>
    cases hitems with
    | cons settled hitem hrest =>
      have hothers := ih hrest
      rw [decodeItems, itemsDepth]
      refine toOption_step settled (hvalue n _ hitem) ?_
      rw [toOption_map, hothers]
      split <;> rfl

/-- A list is read item by item. -/
theorem reads_list {values : List Value} {as : List α}
    (h : List.Forall₂ (Reads decode) values as) :
    Reads (decodeList decode) (.array values) as := by
  intro n d hd
  cases hd with
  | array start hitems =>
    rw [decodeList, toOption_enter_bind, Value.depth]
    -- the list takes one of the containers that are left, if there is one
    cases n with
    | zero => rfl
    | succ k =>
      simp only [toOption_decodeItems h hitems, Nat.add_le_add_iff_right]

/-- So is a list that was written item by item. -/
theorem reads_list_map {encode : α → Value} {as : List α}
    (h : ∀ a ∈ as, Reads decode (encode a) a) :
    Reads (decodeList decode) (.array (as.map encode)) as :=
  reads_list (List.forall₂_map_left_iff.2 (List.forall₂_same.2 h))

end

/-! ### Records -/

/-- The named values fill a draft, one field after the other, each of them for the first time. -/
inductive Fills {σ α : Type} (f : RecordFormat σ α) : List (String × Value) → σ → σ → Prop
  | nil (draft : σ) : Fills f [] draft draft
  | cons {name : String} {field : Field σ} {v : Value} {members : List (String × Value)}
    {draft next last : σ} (hfield : (f.fields.find? fun field => field.name == name) = some field)
    (hset : field.isSet draft = false)
    (hread : Reads (fun room d => field.read room d draft) v next)
    (hrest : Fills f members next last) : Fills f ((name, v) :: members) draft last

section

variable {σ α : Type} {f : RecordFormat σ α}

theorem toOption_readMembers {values : List (String × Value)} {draft last : σ} {a : α}
    (h : Fills f values draft last) (hfinish : f.finish last = .ok a) {members : Members}
    (hmembers : members.StandFor values) (n : Nat) :
    (f.readMembers (n + 1) members draft).toOption =
      if membersDepth values ≤ n then some a else none := by
  induction h generalizing members with
  | nil draft =>
    -- all members are read, and the draft is finished
    cases hmembers with
    | closed stop =>
      rw [RecordFormat.readMembers, hfinish]
      rfl
  | @cons _ field v _ draft _ _ hfield hset hread _ ih =>
    cases hmembers with
    | @cons _ _ settled _ item rest _ _ hitem hrest =>
      rw [RecordFormat.readMembers, hfield, membersDepth]
      -- the field was not set before, so the member is no repeated one
      simp only [hset, Bool.false_eq_true, if_false]
      exact toOption_step settled (hread n _ hitem) (ih hfinish hrest)

/-- A record is read from an object whose members fill a draft that can be finished. -/
theorem reads_record {values : List (String × Value)} {last : σ} {a : α}
    (h : Fills f values f.start last) (hfinish : f.finish last = .ok a) :
    Reads (decodeRecord f) (.object values) a := by
  intro n d hd
  cases hd with
  | object start hmembers =>
    rw [decodeRecord, toOption_enter_bind, Value.depth]
    -- the object takes one of the containers that are left, if there is one
    cases n with
    | zero => rfl
    | succ k => simp only [toOption_readMembers h hfinish hmembers, Nat.add_le_add_iff_right]

end

end OverrideCheck.Json
