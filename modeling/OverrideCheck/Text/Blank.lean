/-!
# White space

The characters with the property `White_Space`, which is the one class of blank
characters this library knows. Erasing a written type drops them, a name in the
settings must hold something else, and a source line is shown without those at its end.

* `isBlank` — membership in the class;
* `String.isBlankText` — a text that holds nothing else;
* `trimBlankEnd` — a list of characters without the blank ones at its end.

The class has 25 members. It is larger than `Char.isWhitespace`, which is ASCII only
(`isBlank_of_isWhitespace`), and it does not hold characters that are merely invisible, such as
the zero-width space.
-/

namespace OverrideCheck

/-- A character with the property `White_Space`. -/
def isBlank (c : Char) : Bool :=
  let n := c.toNat
  (0x09 ≤ n && n ≤ 0x0D) || n == 0x20 || n == 0x85 || n == 0xA0 || n == 0x1680 ||
    (0x2000 ≤ n && n ≤ 0x200A) || n == 0x2028 || n == 0x2029 || n == 0x202F || n == 0x205F ||
    n == 0x3000

/-- Every blank of the ASCII class is in the class. -/
theorem isBlank_of_isWhitespace {c : Char} (h : c.isWhitespace = true) : isBlank c = true := by
  simp only [Char.isWhitespace, Bool.or_eq_true, decide_eq_true_eq] at h
  rcases h with ((h | h) | h) | h <;> subst h <;> decide

/-- A text that holds blank characters only; the empty text is one. -/
def isBlankText (s : String) : Bool := s.toList.all isBlank

/-- The characters up to the last one that is not blank. -/
def trimBlankEnd (cs : List Char) : List Char := (cs.reverse.dropWhile isBlank).reverse

end OverrideCheck
