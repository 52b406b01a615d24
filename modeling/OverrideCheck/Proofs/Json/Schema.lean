import OverrideCheck.Proofs.Json.RecordTrees

/-!
# Schemas

A schema says where the records of a document are, which of their fields may be left out, and which
records pass over members they do not know. With it one can say what happens when a document is
edited at some place, however deep, without looking at a decoder.

* `Schema` — what a value is made of, as far as records go;
* `Schema.Edited` — a tree that differs from another by one member of a record, and whether that is
  to make no difference or is to be refused;
* `Schema.Describes` — a decoder that keeps what a schema says;
* `Schema.Fits` — a field that does, and that makes the same of its default as of nothing;
* `describes_list`, `describes_record` — lists and records keep it if their parts do.

A decoder keeps what its schema says only as long as there is room for the containers, because a
default may itself be one. So a schema describes a decoder at a given room.
-/

namespace OverrideCheck.Json

/-- What a value is made of, as far as records go. -/
inductive Schema
  /-- A value that holds no record. -/
  | leaf
  | list (item : Schema)
  /-- A record: whether it passes over members of other names, and its fields. With the name of a
  field stands what it holds and, if it may be left out, the tree that says the same. -/
  | record (lenient : Bool) (fields : List (String × Schema × Option Tree))

/-- What becomes of a document when it is edited. -/
inductive Effect
  /-- It is taken as the same value as before, or refused as before. -/
  | same
  | refused

/-- What was made of a tree before and after it was edited bears an effect out. -/
def Effect.Holds {α : Type} : Effect → Option α → Option α → Prop
  | .same, before, after => after = before
  | .refused, _, after => after = none

theorem Effect.Holds.bind {α β : Type} {effect : Effect} {before after : Option α}
    (h : effect.Holds before after) (next : α → Option β) :
    effect.Holds (before.bind next) (after.bind next) := by
  cases effect with
  | same => exact congrArg (Option.bind · next) h
  | refused =>
    have hnone : after = none := h
    rw [hnone]
    rfl

theorem Effect.holds_bind {α β : Type} {effect : Effect} {f g : α → Option β}
    (h : ∀ a, effect.Holds (f a) (g a)) (o : Option α) : effect.Holds (o.bind f) (o.bind g) := by
  cases o with
  | some a => exact h a
  | none => cases effect <;> rfl

/-- The second tree is the first one with a member more in one of its records. What comes of it is
read off the schema: which name the member has, and whether the record is lenient. -/
inductive Schema.Edited : Effect → Schema → Tree → Tree → Prop
  /-- A field that was left out is given with its default. -/
  | given {lenient : Bool} {fields : List (String × Schema × Option Tree)} {name : String}
    {s : Schema} {default : Tree} (hfield : (name, s, some default) ∈ fields)
    (before after : List (Option String × Tree))
    (habsent : ∀ m ∈ before ++ after, m.1 ≠ some name) :
    Schema.Edited .same (.record lenient fields) (.object (before ++ after))
      (.object (before ++ (some name, default) :: after))
  /-- A lenient record is given a member of an unknown name. -/
  | passedOver {fields : List (String × Schema × Option Tree)} {name : String}
    (hname : name ∉ fields.map Prod.fst) (before after : List (Option String × Tree)) (t : Tree) :
    Schema.Edited .same (.record true fields) (.object (before ++ after))
      (.object (before ++ (some name, t) :: after))
  /-- A strict record is given a member of an unknown name. -/
  | unknown {fields : List (String × Schema × Option Tree)} {name : String}
    (hname : name ∉ fields.map Prod.fst) (before after : List (Option String × Tree)) (t : Tree) :
    Schema.Edited .refused (.record false fields) (.object (before ++ after))
      (.object (before ++ (some name, t) :: after))
  /-- The edit is made within an item of a list. -/
  | inItem {effect : Effect} {s : Schema} (before after : List Tree) {t t' : Tree}
    (h : Schema.Edited effect s t t') :
    Schema.Edited effect (.list s) (.array (before ++ t :: after)) (.array (before ++ t' :: after))
  /-- The edit is made within what a field holds. -/
  | inField {effect : Effect} {lenient : Bool} {fields : List (String × Schema × Option Tree)}
    {name : String} {s : Schema} {default? : Option Tree} (hfield : (name, s, default?) ∈ fields)
    (before after : List (Option String × Tree)) {t t' : Tree} (h : Schema.Edited effect s t t') :
    Schema.Edited effect (.record lenient fields) (.object (before ++ (some name, t) :: after))
      (.object (before ++ (some name, t') :: after))

/-- The decoder keeps what the schema says, with the given room. -/
def Schema.Describes {α : Type} (s : Schema) (room : Nat) (decode : Decoder α) : Prop :=
  ∀ effect t t', s.Edited effect t t' →
    effect.Holds (decode.meaning room t) (decode.meaning room t')

section

variable {α : Type} {s : Schema} {room : Nat} {decode : Decoder α}

/-- Where there is no record nothing is edited. -/
theorem describes_leaf : Schema.leaf.Describes room decode := nofun

theorem describes_list (hregular : decode.Regular) (h : s.Describes (room + 1) decode) :
    (Schema.list s).Describes (room + 2) (decodeList decode) := by
  intro effect t t' hedit
  have hlist (t : Tree) : (decodeList decode).meaning (room + 2) t =
      listMeaning decode.meaning (room + 2) t :=
    (denotes_list hregular.denotes).meaning_eq _ t
  cases hedit with
  | @inItem _ _ before after t t' ht =>
    rw [hlist, hlist]
    show effect.Holds ((before ++ t :: after).mapM (decode.meaning (room + 1)))
      ((before ++ t' :: after).mapM (decode.meaning (room + 1)))
    rw [List.mapM_append, List.mapM_append, List.mapM_cons, List.mapM_cons]
    -- the items before are taken first, and the edited one is not looked at if one of them is not
    refine Effect.holds_bind (fun as => ?_) _
    exact ((h _ _ _ ht).bind _).bind _

end

/-! ### Records -/

section

variable {σ α : Type} {room : Nat} {f : RecordFormat σ α}

/-- A field of a record keeps what the schema says of it. If it may be left out, then a draft in
which it is not set makes the same record as one into which its default was put. -/
structure Schema.Fits (room : Nat) (f : RecordFormat σ α) (field : Field σ)
    (entry : String × Schema × Option Tree) : Prop where
  name : field.name = entry.1
  edited : ∀ {effect t t'}, entry.2.1.Edited effect t t' → ∀ draft,
    effect.Holds (field.meaning room t draft) (field.meaning room t' draft)
  default : ∀ t, entry.2.2 = some t → ∀ draft, field.isSet draft = false →
    (field.meaning room t draft).bind f.result = f.result draft

theorem find?_of_fits {fields : List (Field σ)} {entries : List (String × Schema × Option Tree)}
    (h : List.Forall₂ (Schema.Fits room f) fields entries)
    (hnodup : (fields.map (·.name)).Nodup) {entry : String × Schema × Option Tree}
    (hentry : entry ∈ entries) :
    ∃ field, (fields.find? fun field => field.name == entry.1) = some field ∧
      Schema.Fits room f field entry := by
  induction h with
  | nil => cases hentry
  | @cons field first fields entries hfits _ ih =>
    rw [List.map_cons, List.nodup_cons] at hnodup
    -- the entry is the first one, or it comes later and so does its field
    rcases List.mem_cons.1 hentry with rfl | hrest
    · exact ⟨field, List.find?_cons_of_pos (by simpa using hfits.name), hfits⟩
    · obtain ⟨found, hfound, hfitsFound⟩ := ih hnodup.2 hrest
      refine ⟨found, ?_, hfitsFound⟩
      rw [List.find?_cons_of_neg, hfound]
      -- the names are different, so the first field is not the one that is looked for
      intro hname
      rw [beq_iff_eq, ← hfitsFound.name] at hname
      exact hnodup.1 (hname ▸ List.mem_map_of_mem (List.mem_of_find?_eq_some hfound))

theorem find?_eq_none_of_fits {fields : List (Field σ)}
    {entries : List (String × Schema × Option Tree)}
    (h : List.Forall₂ (Schema.Fits room f) fields entries) {name : String}
    (hname : name ∉ entries.map Prod.fst) :
    (fields.find? fun field => field.name == name) = none := by
  induction h with
  | nil => rfl
  | @cons field first fields entries hfits _ ih =>
    rw [List.map_cons, List.mem_cons, not_or] at hname
    rw [List.find?_cons_of_neg, ih hname.2]
    intro heq
    exact hname.1 ((beq_iff_eq.1 heq).symm.trans hfits.name)

/-- A member of another name does not set a field. -/
theorem isSet_of_put (h : f.Tidy) {name : String} {field : Field σ}
    (hfield : (f.fields.find? fun field => field.name == name) = some field)
    {m : Option String × Tree} (hm : m.1 ≠ some name) {draft next : σ}
    (hput : f.put room draft m = some next) : field.isSet next = field.isSet draft := by
  match m with
  | (none, _) => cases hput
  | (some other, t) =>
    simp only [RecordFormat.put] at hput
    cases hfind : f.fields.find? fun field => field.name == other with
    | none =>
      rw [hfind] at hput
      cases hlenient : f.lenient with
      | false => simp [hlenient] at hput
      | true =>
        simp only [hlenient, if_true, Option.some.injEq] at hput
        rw [hput]
    | some b =>
      have hname : other ≠ name := fun heq => hm (congrArg some heq)
      -- the member goes into another field, which leaves this one alone
      have hapart := apart_of_find? h.apart hname hfind hfield
      simp only [hfind] at hput
      cases hset : b.isSet draft with
      | true => simp [hset] at hput
      | false =>
        simp only [hset, Bool.false_eq_true, if_false] at hput
        exact hapart.left hput

/-- A field that is not given is not set. -/
theorem isSet_of_putAll (h : f.Tidy) {name : String} {field : Field σ}
    (hfield : (f.fields.find? fun field => field.name == name) = some field)
    (ms : List (Option String × Tree)) (habsent : ∀ m ∈ ms, m.1 ≠ some name) {draft next : σ}
    (hput : putAll (f.put room) (some draft) ms = some next) :
    field.isSet next = field.isSet draft := by
  -- induction on the members, none of which goes into the field
  induction ms generalizing draft with
  | nil =>
    rw [putAll_nil, Option.some.injEq] at hput
    rw [hput]
  | cons m ms ih =>
    rw [putAll_cons, Option.bind_some] at hput
    cases hfirst : f.put room draft m with
    | none =>
      rw [hfirst, putAll_none] at hput
      cases hput
    | some middle =>
      rw [hfirst] at hput
      rw [ih (fun other hother => habsent other (List.mem_cons_of_mem _ hother)) hput]
      exact isSet_of_put h hfield (habsent m List.mem_cons_self) hfirst

/-- **A record keeps what its schema says** if its fields do. -/
theorem describes_record (h : f.Tidy) {lenient : Bool} (hlenient : f.lenient = lenient)
    {entries : List (String × Schema × Option Tree)}
    (hfits : List.Forall₂ (Schema.Fits (room + 1) f) f.fields entries) :
    (Schema.record lenient entries).Describes (room + 2) (decodeRecord f) := by
  intro effect t t' hedit
  have hrecord (ms : List (Option String × Tree)) :
      (decodeRecord f).meaning (room + 2) (.object ms) =
        (putAll (f.put (room + 1)) (some f.start) ms).bind f.result :=
    (denotes_record h.regular).meaning_eq _ _
  cases hedit with
  | @given _ _ name _ default hfield before after habsent =>
    obtain ⟨field, hfind, hfit⟩ := find?_of_fits hfits h.nodup hfield
    have hfar : ∀ m ∈ after, NamesDiffer (some name, default) m := by
      intro m hm other hother
      exact Option.some.inj hother ▸ habsent m (List.mem_append_right _ hm)
    -- the default may as well come last, when every other member is put in
    have hlast :
        putAll (f.put (room + 1)) (some f.start) (before ++ (some name, default) :: after) =
          (putAll (f.put (room + 1)) (some f.start) (before ++ after)).bind fun draft =>
          f.put (room + 1) draft (some name, default) := by
      rw [putAll_append, putAll_cons_comm (commuting_put h.apart _) hfar, ← putAll_append]
    rw [hrecord, hrecord, hlast]
    show Option.bind _ _ = Option.bind _ _
    cases hall : putAll (f.put (room + 1)) (some f.start) (before ++ after) with
    | none => rfl
    | some draft =>
      have hunset : field.isSet draft = false :=
        (isSet_of_putAll h hfind _ habsent hall).trans
          (h.unset field (List.mem_of_find?_eq_some hfind))
      have hput : f.put (room + 1) draft (some name, default) =
          field.meaning (room + 1) default draft := by
        simp only [RecordFormat.put, hfind, hunset, Bool.false_eq_true, if_false]
      rw [Option.bind_some, Option.bind_some, hput]
      exact hfit.default default rfl draft hunset
  | @passedOver _ name hname before after t =>
    -- no field has the name, so the draft is what it was without the member
    have hput (draft : σ) : f.put (room + 1) draft (some name, t) = some draft := by
      simp only [RecordFormat.put, find?_eq_none_of_fits hfits hname, hlenient, if_true]
    rw [hrecord, hrecord, putAll_append, putAll_append, putAll_cons]
    simp only [hput, Option.bind_fun_some]
    rfl
  | @unknown _ name hname before after t =>
    -- no field has the name and the record is strict, so nothing is left to go on with
    have hput (draft : σ) : f.put (room + 1) draft (some name, t) = none := by
      simp only [RecordFormat.put, find?_eq_none_of_fits hfits hname, hlenient,
        Bool.false_eq_true, if_false]
    rw [hrecord, hrecord, putAll_append, putAll_append, putAll_cons]
    simp only [hput, Option.bind_fun_none, putAll_none]
    rfl
  | @inField _ _ _ name _ _ hfield before after t t' ht =>
    obtain ⟨field, hfind, hfit⟩ := find?_of_fits hfits h.nodup hfield
    rw [hrecord, hrecord, putAll_append, putAll_append, putAll_cons, putAll_cons,
      putAll_eq_bind _ after, putAll_eq_bind (Option.bind _ _) after]
    -- whatever comes before and after is the same, so the effect is the one on the field
    refine ((Effect.holds_bind (fun draft => ?_) _).bind _).bind _
    simp only [RecordFormat.put, hfind]
    cases field.isSet draft with
    | true => cases effect <;> rfl
    | false => exact hfit.edited ht draft

end

end OverrideCheck.Json
