import Mathlib.Logic.Basic
import OverrideCheck.Settings.Decode

/-!
# What a settings file gives

A table is read entry by entry into a draft, and each entry has a slot of the draft to itself. So
what stands in a slot at the end is the value of an entry with the key of the slot, and a slot is
empty exactly when no entry has its key; entries with other keys are refused.

* `GivenBy` — a value is said by a table under a key, or there is none because the key is absent;
* `decodeEntries_known`, `decodeEntries_givenBy` — a table that is accepted has known keys only, and
  leaves in a slot what it gives under its key;
* `GivenNames.TakenFrom`, `GivenValidation.TakenFrom`, `GivenSettings.TakenFrom` — given settings
  are what the document gives, key by key;
* `takenFrom_of_decodeSettings` — those of a document are.

The entry of a key is not said to be the only one. It is, in a document, where no key occurs twice,
but reading does not rely on it.
-/

namespace OverrideCheck

open Toml (Node Entries Refusal)

section Results

variable {ε ε' α : Type} {f : ε → ε'} {r : Except ε α}

/-- What succeeds does so however its errors are put. -/
theorem mapError_eq_ok_iff {v : α} : r.mapError f = .ok v ↔ r = .ok v := by
  cases r with
  | error e => exact ⟨nofun, nofun⟩
  | ok w =>
    show (.ok w : Except ε' α) = .ok v ↔ _
    rw [Except.ok.injEq, Except.ok.injEq]

theorem mapError_eq_error_iff {e' : ε'} :
    r.mapError f = .error e' ↔ ∃ e, r = .error e ∧ f e = e' := by
  cases r with
  | error e =>
    show (.error (f e) : Except ε' α) = .error e' ↔ _
    simp
  | ok w => exact ⟨nofun, nofun⟩

end Results

/-- A value is what a decoder makes of a node. -/
def Says {α : Type} (decode : Node → Except Refusal α) (node : Node) (v : α) : Prop :=
  decode node = .ok v

/-- What a table gives under a key: something that an entry with that key says, or nothing if there
is no such entry. -/
def GivenBy {α : Type} (entries : Entries) (name : String) (told : Node → α → Prop) :
    Option α → Prop
  | none => ∀ e ∈ entries, e.1.text ≠ name
  | some v => ∃ e ∈ entries, e.1.text = name ∧ told e.2 v

theorem GivenBy.imp {α : Type} {entries : Entries} {name : String} {told told' : Node → α → Prop}
    {given : Option α} (h : GivenBy entries name told given)
    (htold : ∀ node v, told node v → told' node v) : GivenBy entries name told' given := by
  cases given with
  | none => exact h
  | some v =>
    obtain ⟨e, he, hkey, hv⟩ := h
    exact ⟨e, he, hkey, htold _ _ hv⟩

section Slots

variable {σ α : Type} {slots : List (Slot σ)} {name : String} {decode : Node → Except Refusal α}
  {set : σ → α → σ}

/-- Reading into a slot leaves a part of the draft as it is. -/
def Slot.Keeps {β : Type} (slot : Slot σ) (get : σ → β) : Prop :=
  ∀ node d d', slot.read node d = .ok d' → get d' = get d

@[simp] theorem Slot.name_of : (Slot.of name set decode).name = name := rfl

/-- What is read into a slot is a value that is put there. -/
theorem Slot.read_of_eq_ok_iff {node : Node} {d d' : σ} :
    (Slot.of name set decode).read node d = .ok d' ↔ ∃ v, decode node = .ok v ∧ set d v = d' := by
  show (decode node).map (set d) = .ok d' ↔ _
  cases decode node with
  | error refusal => simp [Except.map]
  | ok v => simp [Except.map]

/-- A slot whose values are put elsewhere leaves a part of the draft as it is. -/
@[simp] theorem Slot.keeps_of {β : Type} {get : σ → β} (h : ∀ d v, get (set d v) = get d) :
    (Slot.of name set decode).Keeps get := by
  intro node d d' hread
  obtain ⟨v, -, rfl⟩ := read_of_eq_ok_iff.1 hread
  exact h d v

/-- A table that is accepted has an entry more than an accepted one, which is read into its slot. -/
theorem decodeEntries_cons_eq_ok {key : Toml.Key} {node : Node} {rest : Entries} {draft out : σ}
    (h : decodeEntries slots ((key, node) :: rest) draft = .ok out) :
    ∃ slot next, slots.find? (fun s => s.name == key.text) = some slot ∧
      slot.read node draft = .ok next ∧ decodeEntries slots rest next = .ok out := by
  rw [decodeEntries] at h
  split at h
  · cases h
  · next slot hslot =>
    split at h
    · cases h
    · next next hread => exact ⟨slot, next, hslot, hread, h⟩

/-- A table that is accepted has known keys only. -/
theorem decodeEntries_known {entries : Entries} {draft out : σ}
    (h : decodeEntries slots entries draft = .ok out) :
    ∀ e ∈ entries, e.1.text ∈ slots.map (·.name) := by
  induction entries generalizing draft with
  | nil => simp
  | cons e rest ih =>
    obtain ⟨key, node⟩ := e
    obtain ⟨slot, next, hslot, -, hrest⟩ := decodeEntries_cons_eq_ok h
    refine List.forall_mem_cons.2 ⟨List.mem_map.2 ⟨slot, List.mem_of_find?_eq_some hslot, ?_⟩,
      ih hrest⟩
    simpa using List.find?_some hslot

/-- What an accepted table leaves in a slot that was empty is what it gives under the key of the
slot, if no other slot touches that part of the draft. -/
theorem decodeEntries_givenBy (get : σ → Option α) (hget : ∀ d v, get (set d v) = some v)
    (hslot : slots.find? (fun s => s.name == name) = some (.of name set decode))
    (hothers : ∀ slot ∈ slots, slot.name = name ∨ slot.Keeps get) {entries : Entries}
    {draft out : σ} (hempty : get draft = none)
    (h : decodeEntries slots entries draft = .ok out) :
    GivenBy entries name (Says decode) (get out) := by
  -- what stands there in the end is what stood there in the draft, or the value of an entry
  have hread : ((∀ e ∈ entries, e.1.text ≠ name) ∧ get out = get draft) ∨
      ∃ e ∈ entries, e.1.text = name ∧ ∃ v, decode e.2 = .ok v ∧ get out = some v := by
    -- entries of other keys may come before, so the draft is any, be it empty there or not
    clear hempty
    induction entries generalizing draft with
    | nil =>
      obtain rfl : draft = out := Except.ok.inj h
      exact Or.inl ⟨by simp, rfl⟩
    | cons e rest ih =>
      obtain ⟨key, node⟩ := e
      obtain ⟨slot, next, hfound, hread, hrest⟩ := decodeEntries_cons_eq_ok h
      -- an entry of the key is read into the slot, and an entry of another key leaves it alone
      by_cases hkey : key.text = name
      · rw [hkey, hslot, Option.some.injEq] at hfound
        rw [← hfound] at hread
        obtain ⟨v, hv, rfl⟩ := Slot.read_of_eq_ok_iff.1 hread
        rcases ih hrest with ⟨-, hout⟩ | ⟨e, he, hlater⟩
        · exact Or.inr ⟨_, List.mem_cons_self, hkey, v, hv, hout.trans (hget draft v)⟩
        · exact Or.inr ⟨e, List.mem_cons_of_mem _ he, hlater⟩
      · have hname : slot.name ≠ name := fun heq =>
          hkey ((by simpa using List.find?_some hfound : slot.name = key.text).symm.trans heq)
        have hkeeps := (hothers slot (List.mem_of_find?_eq_some hfound)).resolve_left hname
        rcases ih hrest with ⟨habsent, hout⟩ | ⟨e, he, hlater⟩
        · exact Or.inl ⟨List.forall_mem_cons.2 ⟨hkey, habsent⟩,
            hout.trans (hkeeps node draft next hread)⟩
        · exact Or.inr ⟨e, List.mem_cons_of_mem _ he, hlater⟩
  -- the draft was empty there at the start, so a value at the end comes from an entry
  rcases hread with ⟨habsent, hout⟩ | ⟨e, he, hkey, v, hv, hout⟩
  · rw [hout, hempty]
    exact habsent
  · rw [hout]
    exact ⟨e, he, hkey, hv⟩

end Slots

/-! ### The tables of a settings file -/

/-- A table is accepted as a record when its entries are. -/
theorem decodeSlots_table_eq_ok_iff {σ : Type} {record : String} {slots : List (Slot σ)}
    {start out : σ} {style : Toml.TableStyle} {span? : Option Toml.ByteSpan} {entries : Entries} :
    decodeSlots record slots start (.table style span? entries) = .ok out ↔
      decodeEntries slots entries start = .ok out :=
  mapError_eq_ok_iff

/-- Given names are what a table gives under their keys, and it has no other keys. -/
structure GivenNames.TakenFrom (n : GivenNames) (entries : Entries) : Prop where
  known : ∀ e ∈ entries,
    e.1.text ∈ ["rebind", "type_param", "rebind_param", "type_member", "default_type"]
  rebind : GivenBy entries "rebind" (Says decodeWord) n.rebind
  typeParam : GivenBy entries "type_param" (Says decodeWord) n.typeParam
  rebindParam : GivenBy entries "rebind_param" (Says decodeWord) n.rebindParam
  typeMember : GivenBy entries "type_member" (Says decodeWord) n.typeMember
  defaultType : GivenBy entries "default_type" (Says decodeWord) n.defaultType

/-- What is given about the validation is what a table gives under its keys, and it has no other
keys. -/
structure GivenValidation.TakenFrom (g : GivenValidation) (entries : Entries) : Prop where
  known : ∀ e ∈ entries, e.1.text ∈ ["unspecified", "parallel"]
  unspecified : GivenBy entries "unspecified" (Says decodePolicy) g.unspecified
  parallel : GivenBy entries "parallel" (Says decodeFlag) g.parallel

/-- A node that is a table says what is taken from its entries. An array in place of a table has no
keys. -/
def TableSays {α : Type} (taken : α → Entries → Prop) (node : Node) (v : α) : Prop :=
  ∀ style span? entries, node = .table style span? entries → taken v entries

/-- Given settings are what a document gives: its two tables, and what stands in these. It has no
other keys. -/
structure GivenSettings.TakenFrom (g : GivenSettings) (entries : Entries) : Prop where
  known : ∀ e ∈ entries, e.1.text ∈ ["annotations", "validation"]
  names : GivenBy entries "annotations" (TableSays GivenNames.TakenFrom) g.names
  validation : GivenBy entries "validation" (TableSays GivenValidation.TakenFrom) g.validation

theorem tableSays_of_decodeNames {node : Node} {n : GivenNames} (h : Says decodeNames node n) :
    TableSays GivenNames.TakenFrom node n := by
  rintro style span? entries rfl
  rw [Says, decodeNames, decodeSlots_table_eq_ok_iff] at h
  exact
    { known := decodeEntries_known h
      rebind := decodeEntries_givenBy (·.rebind) (fun _ _ => rfl) rfl (by simp) rfl h
      typeParam := decodeEntries_givenBy (·.typeParam) (fun _ _ => rfl) rfl (by simp) rfl h
      rebindParam := decodeEntries_givenBy (·.rebindParam) (fun _ _ => rfl) rfl (by simp) rfl h
      typeMember := decodeEntries_givenBy (·.typeMember) (fun _ _ => rfl) rfl (by simp) rfl h
      defaultType := decodeEntries_givenBy (·.defaultType) (fun _ _ => rfl) rfl (by simp) rfl h }

theorem tableSays_of_decodeValidation {node : Node} {g : GivenValidation}
    (h : Says decodeValidation node g) : TableSays GivenValidation.TakenFrom node g := by
  rintro style span? entries rfl
  rw [Says, decodeValidation, decodeSlots_table_eq_ok_iff] at h
  exact
    { known := decodeEntries_known h
      unspecified := decodeEntries_givenBy (·.unspecified) (fun _ _ => rfl) rfl (by simp) rfl h
      parallel := decodeEntries_givenBy (·.parallel) (fun _ _ => rfl) rfl (by simp) rfl h }

/-- The given settings of a document are what the document gives. -/
theorem takenFrom_of_decodeSettings {entries : Entries} {g : GivenSettings}
    (h : decodeSettings entries = .ok g) : g.TakenFrom entries := by
  have hnames : GivenBy entries "annotations" (Says decodeNames) g.names :=
    decodeEntries_givenBy (·.names) (fun _ _ => rfl) rfl (by simp) rfl h
  have hvalidation : GivenBy entries "validation" (Says decodeValidation) g.validation :=
    decodeEntries_givenBy (·.validation) (fun _ _ => rfl) rfl (by simp) rfl h
  exact
    { known := decodeEntries_known h
      names := hnames.imp fun _ _ => tableSays_of_decodeNames
      validation := hvalidation.imp fun _ _ => tableSays_of_decodeValidation }

end OverrideCheck
