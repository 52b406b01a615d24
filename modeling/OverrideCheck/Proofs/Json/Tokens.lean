import OverrideCheck.Proofs.Json.Meaning

/-!
# Reading the tokens of a value

The tokens of a value are read as a document that stands for the value, whatever tokens come after
them. Only the kinds of the tokens matter; their places go into the document and are not looked at.

* `Value.tokens` — the kinds of the tokens of a value;
* `readItem_of_close`, `readItem_of_comma`, `readMember_of_close`, `readMember_of_comma` — what one
  step in a list or an object does;
* `readValue_of_tokens` — the reading of a value.

What is left is described by its kinds alone (`ReadsValue`), so that steps compose without speaking
of the tokens in front.
-/

namespace OverrideCheck.Json

mutual

/-- The kinds of the tokens of a value. -/
def Value.tokens : Value → List TokenKind
  | .null => [.literal (.ok .null)]
  | .boolean value => [.literal (.ok (.boolean value))]
  | .integer value => [.literal (.ok (.number (.integer value)))]
  | .string text => [.string (.ok text)]
  | .array items => .openArray :: itemTokens items
  | .object members => .openObject :: memberTokens members

/-- The kinds of the tokens of a list after its opening bracket. -/
def itemTokens : List Value → List TokenKind
  | [] => [.closeArray]
  | item :: rest => item.tokens ++ laterItemTokens rest

/-- The kinds of the tokens of a list after an item. -/
def laterItemTokens : List Value → List TokenKind
  | [] => [.closeArray]
  | item :: rest => .comma :: (item.tokens ++ laterItemTokens rest)

/-- The kinds of the tokens of an object after its opening bracket. -/
def memberTokens : List (String × Value) → List TokenKind
  | [] => [.closeObject]
  | (name, value) :: rest =>
    .string (.ok name) :: .colon :: (value.tokens ++ laterMemberTokens rest)

/-- The kinds of the tokens of an object after a member. -/
def laterMemberTokens : List (String × Value) → List TokenKind
  | [] => [.closeObject]
  | (name, value) :: rest =>
    .comma :: .string (.ok name) :: .colon :: (value.tokens ++ laterMemberTokens rest)

end

/-- The kinds of some tokens. -/
abbrev kindsOf (tokens : List Token) : List TokenKind := tokens.map (·.kind)

/-- A value begins with a token, which is no closing bracket. -/
theorem Value.tokens_eq_cons (v : Value) :
    ∃ first rest, v.tokens = first :: rest ∧ first ≠ .closeArray := by
  cases v <;> exact ⟨_, _, rfl, nofun⟩

section

variable {stop : Nat} {tokens : List Token} {kinds : List TokenKind}

/-- What was read of some tokens stands for the value `v` and leaves tokens of the given kinds. -/
def ReadsValue (v : Value) (kinds : List TokenKind) (result : Document × Remaining tokens) : Prop :=
  result.1.StandsFor v ∧ kindsOf result.2.1 = kinds

/-- The like for the items of a list. -/
def ReadsItems (vs : List Value) (kinds : List TokenKind)
    (result : Items × Remaining tokens) : Prop :=
  result.1.StandFor vs ∧ kindsOf result.2.1 = kinds

/-- The like for the members of an object. -/
def ReadsMembers (vs : List (String × Value)) (kinds : List TokenKind)
    (result : Members × Remaining tokens) : Prop :=
  result.1.StandFor vs ∧ kindsOf result.2.1 = kinds

/-! ### Lists -/

theorem readFirstItem_of_close (h : kindsOf tokens = .closeArray :: kinds) :
    ReadsItems [] kinds (readFirstItem stop tokens) := by
  obtain ⟨t, rest, rfl, hkind, hrest⟩ := List.map_eq_cons_iff.1 h
  simp only [readFirstItem, hkind]
  exact ⟨.closed _, hrest⟩

theorem readFirstItem_of_ne_close {first : TokenKind} (h : kindsOf tokens = first :: kinds)
    (hfirst : first ≠ .closeArray) : readFirstItem stop tokens = readItem stop tokens := by
  obtain ⟨t, rest, rfl, hkind, hrest⟩ := List.map_eq_cons_iff.1 h
  rw [readFirstItem]
  split
  · next heq => exact absurd (hkind.symm.trans heq) hfirst
  · rfl

theorem readItem_of_close {v : Value}
    (hvalue : ReadsValue v (.closeArray :: kinds) (readValue stop tokens)) :
    ReadsItems [v] kinds (readItem stop tokens) := by
  rw [readItem]
  -- of what was read only its kinds and what it stands for are kept
  revert hvalue
  rcases readValue stop tokens with ⟨d, rest, hlength⟩
  rintro ⟨hd, hkinds⟩
  obtain ⟨t, rest, rfl, hkind, hrest⟩ := List.map_eq_cons_iff.1 hkinds
  split
  -- a document that stands for a value is not absent
  · next heq => cases heq; cases hd
  · next heq => cases heq
  · next heq =>
    cases heq
    simp only [hkind]
    exact ⟨.cons _ hd (.closed _), hrest⟩

theorem readItem_of_comma {v : Value} {vs : List Value} {first : TokenKind}
    {more : List TokenKind} (hfirst : first ≠ .closeArray)
    (hvalue : ReadsValue v (.comma :: first :: more) (readValue stop tokens))
    (hitems : ∀ tokens, kindsOf tokens = first :: more →
      ReadsItems vs kinds (readItem stop tokens)) :
    ReadsItems (v :: vs) kinds (readItem stop tokens) := by
  rw [readItem]
  revert hvalue
  rcases readValue stop tokens with ⟨d, rest, hlength⟩
  rintro ⟨hd, hkinds⟩
  obtain ⟨t, rest, rfl, hkind, hrest⟩ := List.map_eq_cons_iff.1 hkinds
  have hothers := hitems rest hrest
  -- behind the comma another item begins, so it is not one too many
  obtain ⟨next, rest, rfl, hnext, -⟩ := List.map_eq_cons_iff.1 hrest
  split
  · next heq => cases heq; cases hd
  · next heq => cases heq
  · next heq =>
    cases heq
    simp only [hkind]
    split
    · next hclose => exact absurd (hnext.symm.trans hclose) hfirst
    · exact ⟨.cons _ hd hothers.1, hothers.2⟩

/-! ### Objects -/

theorem readFirstMember_of_close (h : kindsOf tokens = .closeObject :: kinds) :
    ReadsMembers [] kinds (readFirstMember stop tokens) := by
  obtain ⟨t, rest, rfl, hkind, hrest⟩ := List.map_eq_cons_iff.1 h
  simp only [readFirstMember, hkind]
  exact ⟨.closed _, hrest⟩

theorem readFirstMember_of_name {name : String} {vs : List (String × Value)}
    {more : List TokenKind} (h : kindsOf tokens = .string (.ok name) :: more)
    (hmembers : ∀ key tokens, key.text = .ok name → kindsOf tokens = more →
      ReadsMembers vs kinds (readMember stop key tokens)) :
    ReadsMembers vs kinds (readFirstMember stop tokens) := by
  obtain ⟨t, rest, rfl, hkind, hrest⟩ := List.map_eq_cons_iff.1 h
  simp only [readFirstMember, hkind]
  exact hmembers ⟨.ok name, t.stop, settleInObject stop rest⟩ rest rfl hrest

theorem readMember_of_close {key : Key} {name : String} {v : Value} {more : List TokenKind}
    (hkey : key.text = .ok name) (h : kindsOf tokens = .colon :: more)
    (hvalue : ∀ tokens, kindsOf tokens = more →
      ReadsValue v (.closeObject :: kinds) (readValue stop tokens)) :
    ReadsMembers [(name, v)] kinds (readMember stop key tokens) := by
  obtain ⟨colon, tokens, rfl, hcolon, hmore⟩ := List.map_eq_cons_iff.1 h
  obtain ⟨_, keyStop, keySettled⟩ := key
  cases hkey
  rw [readMember]
  simp only [hcolon]
  have hread := hvalue tokens hmore
  revert hread
  rcases readValue stop tokens with ⟨d, rest, hlength⟩
  rintro ⟨hd, hkinds⟩
  obtain ⟨t, rest, rfl, hkind, hrest⟩ := List.map_eq_cons_iff.1 hkinds
  split
  · next heq => cases heq; cases hd
  · next heq => cases heq
  · next heq =>
    cases heq
    simp only [hkind]
    exact ⟨.cons _ _ _ _ hd (.closed _), hrest⟩

theorem readMember_of_comma {key : Key} {name other : String} {v : Value}
    {vs : List (String × Value)} {more rest : List TokenKind} (hkey : key.text = .ok name)
    (h : kindsOf tokens = .colon :: more)
    (hvalue : ∀ tokens, kindsOf tokens = more →
      ReadsValue v (.comma :: .string (.ok other) :: rest) (readValue stop tokens))
    (hmembers : ∀ key tokens, key.text = .ok other → kindsOf tokens = rest →
      ReadsMembers vs kinds (readMember stop key tokens)) :
    ReadsMembers ((name, v) :: vs) kinds (readMember stop key tokens) := by
  obtain ⟨colon, tokens, rfl, hcolon, hmore⟩ := List.map_eq_cons_iff.1 h
  obtain ⟨_, keyStop, keySettled⟩ := key
  cases hkey
  rw [readMember]
  simp only [hcolon]
  have hread := hvalue tokens hmore
  revert hread
  rcases readValue stop tokens with ⟨d, after, hlength⟩
  rintro ⟨hd, hkinds⟩
  obtain ⟨t, _, rfl, hkind, hafter⟩ := List.map_eq_cons_iff.1 hkinds
  -- behind the comma stands the name of the next member
  obtain ⟨next, last, rfl, hnext, hlast⟩ := List.map_eq_cons_iff.1 hafter
  have hothers := hmembers ⟨.ok other, next.stop, settleInObject stop last⟩ last rfl hlast
  split
  · next heq => cases heq; cases hd
  · next heq => cases heq
  · next heq =>
    cases heq
    simp only [hkind, hnext]
    exact ⟨.cons _ _ _ _ hd hothers.1, hothers.2⟩

end

/-! ### Values -/

mutual

/-- The tokens of a value are read as a document that stands for it, whatever comes after. -/
theorem readValue_of_tokens (stop : Nat) (v : Value) (tokens : List Token)
    (kinds : List TokenKind) (h : kindsOf tokens = v.tokens ++ kinds) :
    ReadsValue v kinds (readValue stop tokens) := by
  cases v with
  | null =>
    obtain ⟨t, rest, rfl, hkind, hrest⟩ := List.map_eq_cons_iff.1 h
    simp only [readValue, hkind]
    exact ⟨.null _ _, hrest⟩
  | boolean value =>
    obtain ⟨t, rest, rfl, hkind, hrest⟩ := List.map_eq_cons_iff.1 h
    simp only [readValue, hkind]
    exact ⟨.boolean _ _ value, hrest⟩
  | integer value =>
    obtain ⟨t, rest, rfl, hkind, hrest⟩ := List.map_eq_cons_iff.1 h
    simp only [readValue, hkind]
    exact ⟨.integer _ _ value, hrest⟩
  | string text =>
    obtain ⟨t, rest, rfl, hkind, hrest⟩ := List.map_eq_cons_iff.1 h
    simp only [readValue, hkind]
    exact ⟨.string _ _ text, hrest⟩
  | array items =>
    obtain ⟨t, rest, rfl, hkind, hrest⟩ := List.map_eq_cons_iff.1 h
    simp only [readValue, hkind]
    have hitems : ReadsItems items kinds (readFirstItem stop rest) := by
      cases items with
      | nil => exact readFirstItem_of_close hrest
      | cons item more =>
        have hkinds : kindsOf rest = item.tokens ++ (laterItemTokens more ++ kinds) :=
          hrest.trans (List.append_assoc ..)
        -- an item does not begin with the bracket that would close the list
        obtain ⟨first, others, hfirst, hne⟩ := item.tokens_eq_cons
        rw [readFirstItem_of_ne_close (hkinds.trans (by rw [hfirst]; rfl)) hne]
        exact readItem_of_value stop more (readValue_of_tokens stop item rest _ hkinds)
    exact ⟨.array _ hitems.1, hitems.2⟩
  | object members =>
    obtain ⟨t, rest, rfl, hkind, hrest⟩ := List.map_eq_cons_iff.1 h
    simp only [readValue, hkind]
    have hmembers : ReadsMembers members kinds (readFirstMember stop rest) := by
      cases members with
      | nil => exact readFirstMember_of_close hrest
      | cons member more =>
        obtain ⟨name, value⟩ := member
        refine readFirstMember_of_name hrest fun key tokens hkey htokens => ?_
        refine readMember_of_value stop more hkey htokens fun tokens htokens => ?_
        exact readValue_of_tokens stop value tokens _ (htokens.trans (List.append_assoc ..))
    exact ⟨.object _ hmembers.1, hmembers.2⟩

/-- So are the tokens of a list of which an item was read. -/
theorem readItem_of_value (stop : Nat) (more : List Value) {item : Value} {tokens : List Token}
    {kinds : List TokenKind}
    (hvalue : ReadsValue item (laterItemTokens more ++ kinds) (readValue stop tokens)) :
    ReadsItems (item :: more) kinds (readItem stop tokens) := by
  cases more with
  | nil => exact readItem_of_close hvalue
  | cons next more =>
    obtain ⟨first, others, hfirst, hne⟩ := next.tokens_eq_cons
    -- the comma is looked at together with the token behind it
    have hkinds : laterItemTokens (next :: more) ++ kinds =
        .comma :: first :: (others ++ laterItemTokens more ++ kinds) := by
      rw [laterItemTokens, hfirst]
      rfl
    rw [hkinds] at hvalue
    refine readItem_of_comma hne hvalue fun tokens htokens => ?_
    refine readItem_of_value stop more (readValue_of_tokens stop next tokens _ ?_)
    rw [htokens, hfirst, List.append_assoc]
    rfl

/-- So are the tokens of an object of which a name was read. -/
theorem readMember_of_value (stop : Nat) (more : List (String × Value)) {key : Key} {name : String}
    {value : Value} {tokens : List Token} {rest kinds : List TokenKind}
    (hkey : key.text = .ok name) (h : kindsOf tokens = .colon :: rest)
    (hvalue : ∀ tokens, kindsOf tokens = rest →
      ReadsValue value (laterMemberTokens more ++ kinds) (readValue stop tokens)) :
    ReadsMembers ((name, value) :: more) kinds (readMember stop key tokens) := by
  cases more with
  | nil => exact readMember_of_close hkey h hvalue
  | cons next more =>
    obtain ⟨other, next⟩ := next
    refine readMember_of_comma hkey h hvalue fun key tokens hkey htokens => ?_
    refine readMember_of_value stop more hkey htokens fun tokens htokens => ?_
    exact readValue_of_tokens stop next tokens _ (htokens.trans (List.append_assoc ..))

end

end OverrideCheck.Json
