import OverrideCheck.Json.Fault

/-!
# Numbers in JSON text

A number is scanned by its grammar and then evaluated: to an integer if it has neither fraction
nor exponent and fits one of the two 64-bit ranges, and to a double otherwise. The double is the
leading digits that fit 64 bits, multiplied or divided by a power of ten.

* `Numeral` — the parts of a number as written;
* `scanNumeral` — the grammar, from the first character of a number;
* `Number`, `Numeral.evaluate` — the value, or the place at which it leaves the range of doubles.

A minus sign before zero gives the double minus zero.
-/

namespace OverrideCheck.Json

/-- The value of a number. -/
inductive Number
  | integer (value : Int)
  | double (value : Float)

/-- The parts of a number as written; digits are numbers below ten. -/
structure Numeral where
  negative : Bool
  whole : List Nat
  fraction : List Nat
  /-- The sign, the digits and the place of the first digit of the exponent. -/
  exponent : Option (Bool × List Nat × Nat)
  /-- The place after the number. -/
  stop : Nat

/-- The decimal digits at the start of a text, and the rest of it. -/
def takeDigits (cs : List Char) : List Nat × List Char :=
  ((cs.takeWhile Char.isDigit).map fun c => c.toNat - 48, cs.dropWhile Char.isDigit)

/-- The exponent of a number, from the character after its mark at `offset`. -/
def scanExponent (offset : Nat) (cs : List Char) :
    Except Breach (Bool × List Nat × Nat × List Char) :=
  let (negative, offset, cs) :=
    match cs with
    | '+' :: rest => (false, offset + 1, rest)
    | '-' :: rest => (true, offset + 1, rest)
    | _ => (false, offset, cs)
  match takeDigits cs, cs with
  | ([], _), [] => .error ⟨⟨offset, .endInValue⟩, ⟨offset, .invalidNumber⟩⟩
  | ([], _), _ :: _ => .error (.both (offset + 1) .invalidNumber)
  | (digits, rest), _ => .ok (negative, digits, offset, rest)

/-- The fraction of a number, from the character after its point at `offset`. -/
def scanFraction (offset : Nat) (cs : List Char) : Except Breach (List Nat × List Char) :=
  match takeDigits cs, cs with
  | ([], _), [] => .error ⟨⟨offset, .endInValue⟩, ⟨offset, .invalidNumber⟩⟩
  | ([], _), _ :: _ => .error (.both (offset + 1) .invalidNumber)
  | (digits, rest), _ => .ok (digits, rest)

/-- The digits before the point. There are none besides it after a leading zero. -/
def scanWhole (offset : Nat) (cs : List Char) : Except Breach (List Nat × List Char) :=
  match takeDigits cs, cs with
  | ([], _), [] => .error ⟨⟨offset, .endInValue⟩, ⟨offset, .invalidNumber⟩⟩
  | ([], _), _ :: _ => .error (.both (offset + 1) .invalidNumber)
  | (0 :: _ :: _, _), _ => .error (.both (offset + 2) .invalidNumber)
  | (digits, rest), _ => .ok (digits, rest)

/-- A number, from its first character at `offset`, and the text after it. -/
def scanNumeral (offset : Nat) (cs : List Char) : Except Breach (Numeral × List Char) := do
  let (negative, offset, cs) :=
    match cs with
    | '-' :: rest => (true, offset + 1, rest)
    | _ => (false, offset, cs)
  let (whole, cs) ← scanWhole offset cs
  let offset := offset + whole.length
  let (fraction, offset, cs) ←
    match cs with
    | '.' :: rest => do
      let (digits, rest) ← scanFraction (offset + 1) rest
      pure (digits, offset + 1 + digits.length, rest)
    | _ => pure ([], offset, cs)
  let (exponent, offset, cs) ←
    match cs with
    | c :: rest =>
      if c = 'e' || c = 'E' then do
        let (negative, digits, start, rest) ← scanExponent (offset + 1) rest
        pure (some (negative, digits, start), start + digits.length, rest)
      else pure (none, offset, cs)
    | [] => pure (none, offset, cs)
  return (⟨negative, whole, fraction, exponent, offset⟩, cs)

/-- The largest number of 64 bits. -/
def maxWord : Nat := UInt64.size - 1

/-- The leading digits that fit 64 bits, as a number, and the digits left over. -/
def takeWord (word : Nat) : List Nat → Nat × List Nat
  | [] => (word, [])
  | d :: rest => if word * 10 + d > maxWord then (word, d :: rest) else takeWord (word * 10 + d) rest

/-- The power of ten with a natural exponent, as a double. -/
def powerOfTen (n : Nat) : Float := Float.ofScientific 1 false n

/-- A double times a power of ten; `none` if that is infinite. The range of the exponent is cut to
what a division by `10 ^ 308` can still change. -/
def scaleByTen (value : Float) (exponent : Int) : Option Float :=
  if exponent ≥ 0 then
    if exponent ≤ 308 then
      let scaled := value * powerOfTen exponent.toNat
      if scaled.isInf then none else some scaled
    else if value == 0 then some value else none
  else
    let down := (-exponent).toNat
    if down ≤ 308 then some (value / powerOfTen down)
    else
      let value := value / powerOfTen 308
      if down ≤ 616 then some (value / powerOfTen (down - 308)) else some 0

/-- The largest exponent that is told apart from larger ones. -/
def maxExponent : Nat := Nat.pow 2 31 - 1

/-- The value of an exponent's digits, or the number of digits after which it is too large. -/
def exponentValue (value count : Nat) : List Nat → Except Nat Nat
  | [] => .ok value
  | d :: rest =>
    if value * 10 + d > maxExponent then .error (count + 1)
    else exponentValue (value * 10 + d) (count + 1) rest

namespace Numeral

/-- The double a numeral stands for, or the place at which it proves too large. -/
def toDouble (n : Numeral) : Except Fault Float :=
  let (word, unread) := takeWord 0 n.whole
  let (word, fractionUnread) := takeWord word n.fraction
  let shift : Int := unread.length - Int.ofNat (n.fraction.length - fractionUnread.length)
  let signed (value : Float) := if n.negative then -value else value
  let scaled (exponent : Int) : Except Fault Float :=
    match scaleByTen word.toUInt64.toFloat exponent with
    | some value => .ok (signed value)
    | none => .error ⟨n.stop, .numberOutOfRange⟩
  match n.exponent with
  | none => scaled shift
  | some (negative, digits, start) =>
    match exponentValue 0 0 digits with
    | .ok value => scaled (if negative then shift - Int.ofNat value else shift + Int.ofNat value)
    | .error count =>
      if word = 0 || negative then .ok (signed 0)
      else .error ⟨start + count, .numberOutOfRange⟩

/-- The value of a numeral. -/
def evaluate (n : Numeral) : Except Fault Number :=
  let whole : Nat := n.whole.foldl (fun value d => value * 10 + d) 0
  if n.fraction.isEmpty && n.exponent.isNone then
    if n.negative then
      if whole = 0 then .ok (.double (-0.0))
      else if Int64.minValue.toInt ≤ -whole then .ok (.integer (-whole))
      else n.toDouble.map .double
    else if whole ≤ maxWord then .ok (.integer whole)
    else n.toDouble.map .double
  else n.toDouble.map .double

end Numeral

end OverrideCheck.Json
