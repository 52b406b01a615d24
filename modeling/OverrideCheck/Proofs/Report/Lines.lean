import Mathlib.Data.List.Basic
import OverrideCheck.Report.LineIndex

/-!
# The lines of a source text

The line index holds offsets only. Here they are tied to the text: the range of a line covers
exactly the piece that splitting the text at line feeds puts at the same place.

* `Line` — a piece of a text, what stands before and after it, and its two starts in the index;
* `exists_line` — every piece of the text is such a line;
* `LineIndex.lineRange_exact` — what the range of a line number is, for every number.

The index is built in one pass that knows nothing of what is left of the text, and splitting puts a
character into the first piece of what is left. Both go by recursion on the characters, so one
induction ties them together; it has to be carried from any offset, since the pass never starts
anew.
-/

namespace OverrideCheck

/-- The starts of the lines of a text that begins at an offset. -/
def startsFrom (offset : Nat) (cs : List Char) : List Nat := offset :: lineStartsFrom offset cs

theorem startsFrom_feed (offset : Nat) (rest : List Char) :
    startsFrom offset ('\n' :: rest) = offset :: startsFrom (offset + 1) rest := by
  rw [startsFrom, lineStartsFrom, if_pos rfl, startsFrom]

/-- A character that ends no line moves the start of the line it stands on, and no other start. -/
theorem getElem?_startsFrom_plain {c : Char} (hc : c ≠ '\n') (offset : Nat) (rest : List Char)
    (i : Nat) :
    (startsFrom offset (c :: rest))[i + 1]? = (startsFrom (offset + 1) rest)[i + 1]? := by
  rw [startsFrom, lineStartsFrom, if_neg hc, startsFrom]
  rfl

theorem length_startsFrom (offset : Nat) (cs : List Char) :
    (startsFrom offset cs).length = (cs.splitOn '\n').length := by
  induction cs generalizing offset with
  | nil => rfl
  | cons c rest ih =>
    rw [List.splitOn_cons_eq_if_modifyHead]
    by_cases hc : c = '\n'
    · subst hc
      rw [startsFrom_feed, List.length_cons, ih, if_pos (beq_self_eq_true _), List.length_cons]
    · rw [if_neg (by simpa using hc), List.length_modifyHead, ← ih (offset + 1)]
      unfold startsFrom
      rw [lineStartsFrom, if_neg hc, List.length_cons, List.length_cons]

/-- Every line but the first one begins behind a line feed. -/
theorem lt_of_mem_lineStartsFrom {offset start : Nat} {cs : List Char}
    (h : start ∈ lineStartsFrom offset cs) : offset < start := by
  induction cs generalizing offset with
  | nil => cases h
  | cons c rest ih =>
    unfold lineStartsFrom at h
    split at h
    · rcases List.mem_cons.1 h with rfl | hrest
      · exact Nat.lt_succ_self offset
      · exact Nat.lt_of_succ_lt (ih hrest)
    · exact Nat.lt_of_succ_lt (ih h)

/-- The piece `piece` of the text `cs` is its line number `i`, counted from zero. -/
structure Line (offset : Nat) (cs : List Char) (i : Nat) (before piece after : List Char) :
    Prop where
  split : cs = before ++ piece ++ after
  noFeed : '\n' ∉ piece
  start : (startsFrom offset cs)[i]? = some (offset + before.length)
  /-- The next line starts one place behind this one, and only the last line has no next. -/
  next : (startsFrom offset cs)[i + 1]? = some (offset + before.length + piece.length + 1) ∨
    (startsFrom offset cs)[i + 1]? = none ∧ after = []

/-- Every piece that the text is split into is one of its lines. -/
theorem exists_line (offset : Nat) {cs : List Char} {i : Nat} {piece : List Char}
    (h : (cs.splitOn '\n')[i]? = some piece) :
    ∃ before after, Line offset cs i before piece after := by
  induction cs generalizing offset i piece with
  | nil =>
    -- the empty text is one empty line
    cases i with
    | zero =>
      obtain rfl : [] = piece := Option.some.inj h
      exact ⟨[], [], rfl, List.not_mem_nil, rfl, .inr ⟨rfl, rfl⟩⟩
    | succ i => cases h
  | cons c rest ih =>
    rw [List.splitOn_cons_eq_if_modifyHead] at h
    by_cases hc : c = '\n'
    · subst hc
      rw [if_pos (beq_self_eq_true _)] at h
      cases i with
      | zero =>
        -- the line feed ends an empty line
        obtain rfl : [] = piece := Option.some.inj h
        refine ⟨[], '\n' :: rest, rfl, List.not_mem_nil, rfl, .inl ?_⟩
        rw [startsFrom_feed]
        rfl
      | succ i =>
        obtain ⟨before, after, hline⟩ := ih (offset + 1) (i := i) h
        have hoffset : offset + ('\n' :: before).length = offset + 1 + before.length := by
          rw [List.length_cons]
          omega
        refine ⟨'\n' :: before, after, congrArg _ hline.split, hline.noFeed, ?_, ?_⟩
        · rw [startsFrom_feed, hoffset]
          exact hline.start
        · rw [startsFrom_feed, hoffset]
          exact hline.next
    · rw [if_neg (by simpa using hc), List.getElem?_modifyHead] at h
      cases i with
      | zero =>
        -- the character goes in front of the first line of what is left
        rw [if_pos rfl] at h
        obtain ⟨piece', hpiece', rfl⟩ := Option.map_eq_some_iff.1 h
        obtain ⟨before, after, hline⟩ := ih (offset + 1) hpiece'
        -- the first line starts where the text does, so nothing stands before it
        have hbefore : before = [] := by
          have hstart : some (offset + 1) = some (offset + 1 + before.length) := hline.start
          exact List.eq_nil_of_length_eq_zero (by simpa using hstart)
        subst hbefore
        refine ⟨[], after, congrArg _ hline.split, ?_, rfl, ?_⟩
        · rw [List.mem_cons, not_or]
          exact ⟨Ne.symm hc, hline.noFeed⟩
        · have hend : offset + 0 + (piece'.length + 1) + 1 =
              offset + 1 + 0 + piece'.length + 1 := by omega
          rw [getElem?_startsFrom_plain hc, List.length_cons, List.length_nil, hend]
          exact hline.next
      | succ i =>
        rw [if_neg (Nat.succ_ne_zero i)] at h
        obtain ⟨before, after, hline⟩ := ih (offset + 1) h
        have hoffset : offset + (c :: before).length = offset + 1 + before.length := by
          rw [List.length_cons]
          omega
        refine ⟨c :: before, after, congrArg _ hline.split, hline.noFeed, ?_, ?_⟩
        · rw [getElem?_startsFrom_plain hc, hoffset]
          exact hline.start
        · rw [getElem?_startsFrom_plain hc, hoffset]
          exact hline.next

namespace LineIndex

/-- The range of a line runs from its start to the line feed behind it, or to the text's end. -/
theorem lineRange_of_line {source : String} {line : UInt32} {before piece after : List Char}
    (h : Line 0 source.toList (line.toNat - 1) before piece after) :
    (ofSource source).lineRange line = (before.length, before.length + piece.length) := by
  have hstart := h.start
  have hnext := h.next
  rw [Nat.zero_add] at hstart hnext
  unfold lineRange ofSource
  unfold startsFrom at hstart hnext
  dsimp only
  rw [hstart]
  -- a line with a next one ends at the feed before that, and the last one at the end
  rcases hnext with hnext | ⟨hnext, hafter⟩
  · rw [hnext]
    rfl
  · rw [hnext]
    have hlength : source.toList.length = before.length + piece.length := by
      rw [h.split, hafter, List.append_nil, List.length_append]
    dsimp only
    rw [hlength]

/-- **The range of a line holds exactly that line.** The text is split at its line feeds. The range
of a number that has a piece lies in the text and covers the characters of that piece; a larger
number has the empty range at the end of the text. Number zero has the piece of number one. No
piece holds a line feed, together they make up the text, and every start but the first one is
positive, so that the place before it exists. -/
theorem lineRange_exact (source : String) (line : UInt32) :
    let index := ofSource source
    let range := index.lineRange line
    let pieces := source.toList.splitOn '\n'
    (∀ piece, pieces[line.toNat - 1]? = some piece →
      range.1 ≤ range.2 ∧ range.2 ≤ source.length ∧
        source.toList.extract range.1 range.2 = piece ∧ '\n' ∉ piece) ∧
      (pieces.length ≤ line.toNat - 1 → range = (source.length, source.length)) ∧
      ['\n'].intercalate pieces = source.toList ∧
      ∀ i start, index.starts[i + 1]? = some start → 0 < start := by
  intro index range pieces
  refine ⟨fun piece hpiece => ?_, fun hbeyond => ?_, List.intercalate_splitOn '\n',
    fun i start hstart => ?_⟩
  · obtain ⟨before, after, hline⟩ := exists_line 0 hpiece
    have hrange : range = (before.length, before.length + piece.length) := lineRange_of_line hline
    have hlength : source.length = before.length + piece.length + after.length := by
      rw [← String.length_toList, hline.split, List.length_append, List.length_append]
    rw [hrange]
    refine ⟨Nat.le_add_right _ _, by omega, ?_, hline.noFeed⟩
    rw [List.extract_eq_take_drop, hline.split, List.append_assoc, List.drop_left,
      Nat.add_sub_cancel_left, List.take_left]
  · -- there are as many starts as pieces
    have hnone : index.starts[line.toNat - 1]? = none := by
      rw [List.getElem?_eq_none_iff]
      exact Nat.le_trans (Nat.le_of_eq (length_startsFrom 0 source.toList)) hbeyond
    show lineRange index line = _
    unfold lineRange
    dsimp only
    rw [hnone]
    show (source.toList.length, source.toList.length) = _
    rw [String.length_toList]
  · exact lt_of_mem_lineStartsFrom (List.mem_of_getElem? hstart)

/-- A text with a letter of two bytes, an empty line, and a line feed at its end: the third line,
the empty one behind the last line feed, and one beyond it. -/
theorem lineRange_after_last_feed :
    ((ofSource "é\n\nab\n").lineRange 3 = (3, 5) ∧
      "é\n\nab\n".toList.extract 3 5 = ['a', 'b']) ∧
    "é\n\nab\n".toList.extract ((ofSource "é\n\nab\n").lineRange 4).1
      ((ofSource "é\n\nab\n").lineRange 4).2 = [] ∧
    (ofSource "é\n\nab\n").lineRange 9 = (6, 6) := by
  have hthird := (lineRange_exact "é\n\nab\n" 3).1 ['a', 'b'] (by decide)
  have hlast := (lineRange_exact "é\n\nab\n" 4).1 [] (by decide)
  have hbeyond := (lineRange_exact "é\n\nab\n" 9).2.1 (by decide)
  exact ⟨⟨by decide, hthird.2.2.1⟩, hlast.2.2.1, hbeyond⟩

end LineIndex

end OverrideCheck
