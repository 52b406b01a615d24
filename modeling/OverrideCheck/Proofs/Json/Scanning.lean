import OverrideCheck.Proofs.Json.Tokens

/-!
# Scanning the text of a value

The text of a value on one line is cut into the tokens of the value, and so it is read as a document
that stands for it.

* `scanString_escapeChar`, `scanString_text` — an escaped string is scanned as the string;
* `scanNumeral_toDigits`, `evaluate_digitsOf` — the digits of an integer are scanned and evaluated
  to the integer;
* `Yields` — a text begins with tokens of given kinds and leaves another text;
* `yields_compact` — what the text of a value yields;
* `ofText_compact` — the document of the text of a value.

A number goes on as long as its grammar lets it, so what follows it has to be something that no
number goes on with (`StopsNumber`). In the text of a value that is a comma, a closing bracket or
the end.
-/

namespace OverrideCheck.Json

/-! ### Strings -/

/-- While no half of a surrogate pair waits for the other, a string may go on with anything. -/
theorem StringDraft.expectNoTrailing_of_none {p : StringDraft} (h : p.leading = none)
    (offset : Nat) : p.expectNoTrailing offset = p := by
  rw [StringDraft.expectNoTrailing, h]

/-- A control character is written with its two hexadecimal digits. -/
theorem hexUnit?_of_control : ∀ n < 0x20,
    hexUnit? '0' '0' (Nat.digitChar (n / 16)) (Nat.digitChar (n % 16)) = some n := by
  decide

section

variable {p : StringDraft} (h : p.leading = none) {c : Char} (offset : Nat) (rest : List Char)
include h

theorem scanString_escaped {letter : Char} (hletter : letter ≠ 'u')
    (hc : escapedChar? letter = some c) :
    scanString p offset ('\\' :: letter :: rest) = scanString (p.push c) (offset + 2) rest := by
  rw [scanString]
  · simp only [hc, p.expectNoTrailing_of_none h]
  all_goals simp [hletter]

theorem scanString_control (hc : c.toNat < 0x20) :
    scanString p offset ('\\' :: 'u' :: '0' :: '0' :: Nat.digitChar (c.toNat / 16) ::
      Nat.digitChar (c.toNat % 16) :: rest) = scanString (p.push c) (offset + 6) rest := by
  -- control characters lie far below the surrogates, so the unit is a character by itself
  have hleading : isLeadingSurrogate c.toNat = false := by simp [isLeadingSurrogate]; omega
  have htrailing : isTrailingSurrogate c.toNat = false := by simp [isTrailingSurrogate]; omega
  have hunit : p.pushUnit c.toNat (offset + 6) = p.push c := by
    simp [StringDraft.pushUnit, h, hleading, htrailing, Char.ofNat_toNat]
  simp only [scanString, hexUnit?_of_control _ hc, hunit]

theorem scanString_plain (hquote : c ≠ '"') (hbackslash : c ≠ '\\') (hc : ¬ c.toNat < 0x20) :
    scanString p offset (c :: rest) = scanString (p.push c) (offset + c.utf8Size) rest := by
  rw [scanString]
  · simp only [p.expectNoTrailing_of_none h, if_neg hc]
  all_goals simp [hquote, hbackslash]

/-- What is written of a character is scanned as that character. -/
theorem scanString_escapeChar (c : Char) :
    ∃ offset', scanString p offset ((escapeChar c).toList ++ rest) =
      scanString (p.push c) offset' rest := by
  unfold escapeChar
  split
  -- all but the last case are escapes of one letter
  case h_8 hquote hbackslash _ _ _ _ _ =>
    split
    · next hc =>
      refine ⟨_, Eq.trans ?_ (scanString_control h offset rest hc)⟩
      simp only [String.toList_append, String.toList_ofList, List.append_assoc]
      rfl
    · next hc =>
      refine ⟨_, Eq.trans ?_ (scanString_plain h offset rest hquote hbackslash hc)⟩
      rw [String.toList_singleton]
      rfl
  all_goals exact ⟨_, scanString_escaped h offset rest (by decide) rfl⟩

end

/-- The text of a string is scanned as the string. -/
theorem scanString_text (cs : List Char) (p : StringDraft) (hleading : p.leading = none)
    (hfault : p.fault = none) (offset : Nat) (rest : List Char) :
    ∃ stop, scanString p offset (cs.flatMap (fun c => (escapeChar c).toList) ++ '"' :: rest) =
      .ok (.ok (String.ofList (p.chars.reverse ++ cs)), stop, rest) := by
  induction cs generalizing p offset with
  | nil =>
    refine ⟨offset + 1, ?_⟩
    simp [scanString, p.expectNoTrailing_of_none hleading, StringDraft.finish, hfault]
  | cons c cs ih =>
    -- the first character is pushed, and the draft still has no fault and waits for nothing
    obtain ⟨next, hnext⟩ := scanString_escapeChar hleading offset
      (cs.flatMap (fun c => (escapeChar c).toList) ++ '"' :: rest) c
    obtain ⟨stop, hstop⟩ := ih (p.push c) hleading hfault next
    refine ⟨stop, ?_⟩
    rw [List.flatMap_cons, List.append_assoc, hnext, hstop, StringDraft.push, List.reverse_cons,
      List.append_assoc, List.singleton_append]

/-! ### Numbers -/

/-- A text in front of which a number stops. -/
def StopsNumber (rest : List Char) : Prop :=
  ∀ c ∈ rest.head?, c.isDigit = false ∧ c ≠ '.' ∧ c ≠ 'e' ∧ c ≠ 'E'

/-- The decimal digits of a number, as numbers. -/
def digitsOf (n : Nat) : List Nat := (Nat.toDigits 10 n).map fun c => c.toNat - 48

theorem digitsOf_of_lt {n : Nat} (h : n < 10) : digitsOf n = [n] := by
  rw [digitsOf, Nat.toDigits_of_lt_base h, List.map_singleton,
    Nat.toNat_digitChar_sub_48_of_lt_ten h]

theorem digitsOf_append {n d : Nat} (hn : 0 < n) (hd : d < 10) :
    digitsOf (10 * n + d) = digitsOf n ++ [d] := by
  rw [← digitsOf_of_lt hd, digitsOf, ← Nat.toDigits_append_toDigits (by decide) hn hd,
    List.map_append]
  rfl

/-- The digits of a number are evaluated to the number. -/
theorem foldl_digitsOf (n : Nat) : (digitsOf n).foldl (fun value d => value * 10 + d) 0 = n := by
  -- evaluation is the fold that the library proves to undo writing, up to the order of a product
  have h := Nat.ofDigitChars_ten_toDigits (n := n)
  rw [Nat.ofDigitChars_eq_foldl] at h
  rw [digitsOf, List.foldl_map]
  simpa [Nat.mul_comm] using h

/-- The first digit of a number is no zero unless the number is. -/
theorem digitsOf_eq_cons {n : Nat} (h : 0 < n) : ∃ d ds, digitsOf n = d :: ds ∧ d ≠ 0 := by
  -- induction on the digits: the first one is the first one of all but the last
  induction n using Nat.base_induction 10 (by decide) with
  | single n hn => exact ⟨n, [], digitsOf_of_lt hn, Nat.ne_of_gt h⟩
  | digit n d hd hn ih =>
    obtain ⟨first, more, hfirst, hne⟩ := ih hn
    exact ⟨first, more ++ [d], by rw [digitsOf_append hn hd, hfirst, List.cons_append], hne⟩

variable {rest : List Char}

theorem takeDigits_toDigits (n : Nat) (h : StopsNumber rest) :
    takeDigits (Nat.toDigits 10 n ++ rest) = (digitsOf n, rest) := by
  -- all that is written of the number are digits, and what follows does not begin with one
  have hdigits : ∀ c ∈ Nat.toDigits 10 n, c.isDigit :=
    fun c hc => Nat.isDigit_of_mem_toDigits (by decide) (by decide) hc
  rw [takeDigits, List.takeWhile_append_of_pos hdigits, List.dropWhile_append_of_pos hdigits]
  cases rest with
  | nil => simp [digitsOf]
  | cons c rest =>
    have hc : c.isDigit = false := (h c rfl).1
    simp [digitsOf, hc]

theorem scanWhole_toDigits (n offset : Nat) (h : StopsNumber rest) :
    scanWhole offset (Nat.toDigits 10 n ++ rest) = .ok (digitsOf n, rest) := by
  unfold scanWhole
  rw [takeDigits_toDigits n h]
  -- a number that begins with a zero has no other digit
  rcases Nat.eq_zero_or_pos n with rfl | hn
  · rfl
  · obtain ⟨d, ds, hdigits, hd⟩ := digitsOf_eq_cons hn
    rw [hdigits]
    split <;> simp_all

/-- The sign of a number. -/
def signOf (negative : Bool) : List Char := if negative then ['-'] else []

theorem toDigits_eq_cons (n : Nat) : ∃ c cs, Nat.toDigits 10 n = c :: cs ∧ c.isDigit := by
  obtain ⟨c, cs, hcons⟩ := List.exists_cons_of_ne_nil (Nat.toDigits_ne_nil (n := n) (b := 10))
  have hmem : c ∈ Nat.toDigits 10 n := hcons ▸ List.mem_cons_self
  exact ⟨c, cs, hcons, Nat.isDigit_of_mem_toDigits (by decide) (by decide) hmem⟩

/-- A number without fraction and exponent is scanned up to where it stops. -/
theorem scanNumeral_toDigits (negative : Bool) (n offset : Nat) (h : StopsNumber rest) :
    ∃ stop, scanNumeral offset (signOf negative ++ (Nat.toDigits 10 n ++ rest)) =
      .ok (⟨negative, digitsOf n, [], none, stop⟩, rest) := by
  have hwhole (offset : Nat) := scanWhole_toDigits n offset h
  -- without a sign in front the text must not be taken for one that begins with a sign
  have hsign : ∀ more, Nat.toDigits 10 n ++ rest = '-' :: more → False := by
    obtain ⟨c, cs, hcons, hc⟩ := toDigits_eq_cons n
    rw [hcons]
    rintro more ⟨⟩
    cases hc
  refine ⟨offset + (signOf negative).length + (digitsOf n).length, ?_⟩
  -- what follows the digits begins neither a fraction nor an exponent
  have hnext : ∀ c ∈ rest.head?, c ≠ '.' ∧ c ≠ 'e' ∧ c ≠ 'E' := fun c hc => (h c hc).2
  cases negative with
  | false =>
    show scanNumeral offset (Nat.toDigits 10 n ++ rest) = _
    rw [scanNumeral, hwhole]
    · cases rest <;> simp_all [bind, Except.bind, pure, Except.pure, signOf]
    · exact hsign
  | true =>
    show scanNumeral offset ('-' :: (Nat.toDigits 10 n ++ rest)) = _
    rw [scanNumeral, hwhole]
    cases rest <;> simp_all [bind, Except.bind, pure, Except.pure, signOf]

/-- What is written of an integer. -/
theorem toList_toString (i : Int) :
    (toString i).toList = signOf (decide (i < 0)) ++ Nat.toDigits 10 i.natAbs := by
  rw [Int.toString_eq_repr, Int.repr_eq_if]
  split
  · next h =>
    have hnat : i.natAbs = i.toNat := by omega
    simp [signOf, hnat, h]
  · next h =>
    have hnat : i.natAbs = (-i).toNat := by omega
    have hneg : i < 0 := by omega
    simp [signOf, hnat, hneg]

theorem toList_toString_eq_cons (i : Int) :
    ∃ c cs, (toString i).toList = c :: cs ∧ (c = '-' ∨ c.isDigit) := by
  rw [toList_toString]
  cases decide (i < 0) with
  | false =>
    obtain ⟨c, cs, hcons, hc⟩ := toDigits_eq_cons i.natAbs
    exact ⟨c, cs, hcons, Or.inr hc⟩
  | true => exact ⟨'-', _, rfl, Or.inl rfl⟩

/-- The digits of an integer are evaluated to the integer if it is in range. -/
theorem evaluate_digitsOf {i : Int} (hlow : Int64.minValue.toInt ≤ i)
    (hhigh : i ≤ (UInt64.size - 1 : Nat)) (stop : Nat) :
    Numeral.evaluate ⟨decide (i < 0), digitsOf i.natAbs, [], none, stop⟩ = .ok (.integer i) := by
  unfold Numeral.evaluate
  rw [foldl_digitsOf]
  -- minus zero is no integer to a reader, but an integer below zero has digits other than zero
  by_cases h : i < 0
  · have hne : i.natAbs ≠ 0 := by omega
    have habs : -(i.natAbs : Int) = i := by omega
    simp only [h, decide_true, List.isEmpty_nil, Option.isNone_none, Bool.and_self, if_true, hne,
      if_false, habs, hlow]
  · have habs : (i.natAbs : Int) = i := by omega
    have hle : i.natAbs ≤ maxWord := by
      rw [maxWord]
      omega
    simp [h, habs, hle]

/-! ### Tokens -/

/-- The text `cs` begins with tokens of the given kinds, after which the text `rest` is left. -/
def Yields (cs : List Char) (kinds : List TokenKind) (rest : List Char) : Prop :=
  ∀ fuel offset, cs.length ≤ fuel → ∃ fuel' offset', rest.length ≤ fuel' ∧
    kindsOf (tokenizeFrom fuel offset cs).1 = kinds ++ kindsOf (tokenizeFrom fuel' offset' rest).1

theorem Yields.trans {cs mid rest : List Char} {kinds others : List TokenKind}
    (h : Yields cs kinds mid) (hmid : Yields mid others rest) :
    Yields cs (kinds ++ others) rest := by
  intro fuel offset hfuel
  obtain ⟨fuel, offset, hfuel, hkinds⟩ := h fuel offset hfuel
  obtain ⟨fuel', offset', hfuel', hothers⟩ := hmid fuel offset hfuel
  exact ⟨fuel', offset', hfuel', by rw [hkinds, hothers, List.append_assoc]⟩

theorem yields_of_step {c : Char} {cs rest : List Char} {kind : TokenKind}
    (hspace : isSpace c = false) (hlength : rest.length ≤ cs.length)
    (hstep : ∀ offset, ∃ stop, tokenStep offset c cs = ⟨⟨offset, stop, kind⟩, some rest⟩) :
    Yields (c :: cs) [kind] rest := by
  intro fuel offset hfuel
  cases fuel with
  | zero => cases hfuel
  | succ fuel =>
    obtain ⟨stop, hstop⟩ := hstep offset
    refine ⟨fuel, stop, Nat.le_trans hlength (Nat.le_of_succ_le_succ hfuel), ?_⟩
    rw [tokenizeFrom]
    simp [hspace, hstop]

theorem yields_null (rest : List Char) :
    Yields ("null".toList ++ rest) [.literal (.ok .null)] rest := by
  show Yields ('n' :: 'u' :: 'l' :: 'l' :: rest) _ rest
  exact yields_of_step rfl (Nat.le_add_right _ 3) fun offset => ⟨offset + 4, rfl⟩

theorem yields_boolean (b : Bool) (rest : List Char) :
    Yields ((boolText b).toList ++ rest) [.literal (.ok (.boolean b))] rest := by
  cases b with
  | false =>
    show Yields ('f' :: 'a' :: 'l' :: 's' :: 'e' :: rest) _ rest
    exact yields_of_step rfl (Nat.le_add_right _ 4) fun offset => ⟨offset + 5, rfl⟩
  | true =>
    show Yields ('t' :: 'r' :: 'u' :: 'e' :: rest) _ rest
    exact yields_of_step rfl (Nat.le_add_right _ 3) fun offset => ⟨offset + 4, rfl⟩

theorem yields_string (s : String) (rest : List Char) :
    Yields ((stringText s).toList ++ rest) [.string (.ok s)] rest := by
  -- the text as a list: the quote, the escaped characters, the closing quote
  have htext : (stringText s).toList ++ rest =
      '"' :: (s.toList.flatMap (fun c => (escapeChar c).toList) ++ '"' :: rest) := by
    rw [stringText]
    simp only [String.toList_append, String.toList_join, List.flatMap_map, List.append_assoc]
    rfl
  rw [htext]
  refine yields_of_step rfl ?_ fun offset => ?_
  · rw [List.length_append, List.length_cons]
    omega
  · obtain ⟨stop, hstop⟩ := scanString_text s.toList {} rfl rfl (offset + 1) rest
    refine ⟨stop, ?_⟩
    show stringStep offset _ = _
    rw [stringStep, hstop]
    simp

/-- A sign or a digit begins a number. -/
theorem tokenStep_of_number {c : Char} (hc : c = '-' ∨ c.isDigit) (offset : Nat) (cs : List Char) :
    tokenStep offset c cs = numberStep offset (c :: cs) := by
  unfold tokenStep
  split
  case h_11 => rw [if_pos (by simpa using hc)]
  all_goals simp at hc

theorem isSpace_of_number {c : Char} (hc : c = '-' ∨ c.isDigit) : isSpace c = false := by
  refine Bool.eq_false_iff.2 fun h => ?_
  simp only [isSpace, Bool.or_eq_true, decide_eq_true_eq] at h
  rcases h with ((rfl | rfl) | rfl) | rfl <;> simp at hc

theorem yields_integer {i : Int} (hlow : Int64.minValue.toInt ≤ i)
    (hhigh : i ≤ (UInt64.size - 1 : Nat)) {rest : List Char} (hrest : StopsNumber rest) :
    Yields ((toString i).toList ++ rest) [.literal (.ok (.number (.integer i)))] rest := by
  obtain ⟨c, cs, hcons, hc⟩ := toList_toString_eq_cons i
  rw [hcons, List.cons_append]
  refine yields_of_step (isSpace_of_number hc) ?_ fun offset => ?_
  · rw [List.length_append]
    omega
  · obtain ⟨stop, hstop⟩ := scanNumeral_toDigits (decide (i < 0)) i.natAbs offset hrest
    rw [← List.append_assoc, ← toList_toString, hcons, List.cons_append] at hstop
    refine ⟨stop, ?_⟩
    rw [tokenStep_of_number hc, numberStep, hstop]
    simp only [evaluate_digitsOf hlow hhigh]
    rfl

/-! ### Values -/

/-- The text of a list after an item. -/
def laterItemsText : List Value → List Char
  | [] => [']']
  | item :: rest => ',' :: (item.compact.toList ++ laterItemsText rest)

/-- The text of an object after a member. -/
def laterMembersText : List (String × Value) → List Char
  | [] => ['}']
  | (name, value) :: rest =>
    ',' :: ((stringText name).toList ++ ':' :: (value.compact.toList ++ laterMembersText rest))

theorem toList_compactItems_cons (item : Value) (more : List Value) :
    (compactItems (item :: more)).toList ++ [']'] =
      item.compact.toList ++ laterItemsText more := by
  -- the separators are put between items by one function and in front of them by the other
  induction more generalizing item with
  | nil => rfl
  | cons next more ih =>
    rw [compactItems, String.toList_append, String.toList_append, List.append_assoc, ih next]
    · rw [laterItemsText]
      simp
    · nofun

theorem toList_compactMembers_cons (name : String) (value : Value) (more : List (String × Value)) :
    (compactMembers ((name, value) :: more)).toList ++ ['}'] =
      (stringText name).toList ++ ':' :: (value.compact.toList ++ laterMembersText more) := by
  induction more generalizing name value with
  | nil => simp [compactMembers, laterMembersText]
  | cons next more ih =>
    obtain ⟨other, next⟩ := next
    rw [compactMembers, String.toList_append, List.append_assoc, ih other next]
    · rw [laterMembersText]
      simp
    · nofun

/-- A number stops in front of what may follow a value in a list or an object. -/
theorem stopsNumber_laterItemsText (more : List Value) (rest : List Char) :
    StopsNumber (laterItemsText more ++ rest) := by
  cases more <;> rintro c ⟨⟩ <;> decide

theorem stopsNumber_laterMembersText (more : List (String × Value)) (rest : List Char) :
    StopsNumber (laterMembersText more ++ rest) := by
  cases more <;> rintro c ⟨⟩ <;> decide

theorem Yields.cons {c : Char} {cs rest : List Char} {kind : TokenKind} {kinds : List TokenKind}
    (hspace : isSpace c = false)
    (hstep : ∀ offset, tokenStep offset c cs = punctuation offset kind cs)
    (h : Yields cs kinds rest) : Yields (c :: cs) (kind :: kinds) rest :=
  (yields_of_step hspace (Nat.le_refl _) fun offset => ⟨offset + 1, hstep offset⟩).trans h

mutual

/-- The text of a value yields the tokens of the value. -/
theorem yields_compact (v : Value) (h : v.InRange) (rest : List Char) (hrest : StopsNumber rest) :
    Yields (v.compact.toList ++ rest) v.tokens rest := by
  cases v with
  | null => exact yields_null rest
  | boolean b => exact yields_boolean b rest
  -- the one case that needs to know what follows
  | integer i => exact yields_integer h.1 h.2 hrest
  | string s => exact yields_string s rest
  | array items =>
    have htext : (Value.array items).compact.toList ++ rest =
        '[' :: ((compactItems items).toList ++ [']'] ++ rest) := by
      simp [Value.compact]
    rw [htext]
    refine Yields.cons rfl (fun _ => rfl) ?_
    cases items with
    | nil => exact yields_of_step rfl (Nat.le_refl _) fun offset => ⟨offset + 1, rfl⟩
    | cons item more =>
      rw [toList_compactItems_cons, List.append_assoc]
      exact (yields_compact item h.1 _ (stopsNumber_laterItemsText more rest)).trans
        (yields_laterItems more h.2 rest)
  | object members =>
    have htext : (Value.object members).compact.toList ++ rest =
        '{' :: ((compactMembers members).toList ++ ['}'] ++ rest) := by
      simp [Value.compact]
    rw [htext]
    refine Yields.cons rfl (fun _ => rfl) ?_
    cases members with
    | nil => exact yields_of_step rfl (Nat.le_refl _) fun offset => ⟨offset + 1, rfl⟩
    | cons member more =>
      obtain ⟨name, value⟩ := member
      rw [toList_compactMembers_cons]
      simp only [List.cons_append, List.append_assoc]
      refine (yields_string name _).trans (Yields.cons rfl (fun _ => rfl) ?_)
      exact (yields_compact value h.1 _ (stopsNumber_laterMembersText more rest)).trans
        (yields_laterMembers more h.2 rest)

/-- So does the text of a list after an item. -/
theorem yields_laterItems (more : List Value) (h : ItemsInRange more) (rest : List Char) :
    Yields (laterItemsText more ++ rest) (laterItemTokens more) rest := by
  cases more with
  | nil => exact yields_of_step rfl (Nat.le_refl _) fun offset => ⟨offset + 1, rfl⟩
  | cons item more =>
    have hitem := yields_compact item h.1 (laterItemsText more ++ rest)
      (stopsNumber_laterItemsText more rest)
    rw [laterItemsText, laterItemTokens, List.cons_append, List.append_assoc]
    exact Yields.cons rfl (fun _ => rfl) (hitem.trans (yields_laterItems more h.2 rest))

/-- So does the text of an object after a member. -/
theorem yields_laterMembers (more : List (String × Value)) (h : MembersInRange more)
    (rest : List Char) : Yields (laterMembersText more ++ rest) (laterMemberTokens more) rest := by
  cases more with
  | nil => exact yields_of_step rfl (Nat.le_refl _) fun offset => ⟨offset + 1, rfl⟩
  | cons member more =>
    obtain ⟨name, value⟩ := member
    have hvalue := yields_compact value h.1 (laterMembersText more ++ rest)
      (stopsNumber_laterMembersText more rest)
    rw [laterMembersText, laterMemberTokens]
    simp only [List.cons_append, List.append_assoc]
    refine Yields.cons rfl (fun _ => rfl) ((yields_string name _).trans ?_)
    exact Yields.cons rfl (fun _ => rfl) (hvalue.trans (yields_laterMembers more h.2 rest))

end

/-! ### Documents -/

/-- The text of a value is read as a document that stands for the value, and nothing is left. -/
theorem ofText_compact {v : Value} (h : v.InRange) :
    (Reading.ofText v.compact).root.StandsFor v ∧ (Reading.ofText v.compact).trailing = none := by
  have hyields := yields_compact v h [] nofun
  rw [List.append_nil] at hyields
  obtain ⟨fuel, offset, -, hkinds⟩ := hyields _ 0 (Nat.le_refl _)
  -- the text is used up, so the tokens are those of the value and no others
  have hnone : tokenizeFrom fuel offset [] = ([], offset) := by cases fuel <;> rfl
  rw [hnone] at hkinds
  have hread := readValue_of_tokens (tokenize v.compact).2 v (tokenize v.compact).1 [] hkinds
  revert hread
  unfold Reading.ofText
  rcases tokenize v.compact with ⟨tokens, stop⟩
  dsimp only
  rcases readValue stop tokens with ⟨d, after, hafter⟩
  rintro ⟨hd, hnothing⟩
  cases List.map_eq_nil_iff.1 hnothing
  exact ⟨hd, rfl⟩

end OverrideCheck.Json
