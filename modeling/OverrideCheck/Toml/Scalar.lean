import OverrideCheck.Toml.Cursor
import OverrideCheck.Toml.Node

/-!
# TOML numbers, words and times

* `wholeDigits`, `radixDigits` — digits, with underscores between them;
* `number` — an integer of 64 bits or a floating-point number;
* `dateTime?` — a date, a time or both;
* `scalar` — the value that starts with a sign, a digit or a letter.

Of a date or a time nothing is kept but where it stands, since no setting takes one; it has to be a
possible one all the same.
-/

namespace OverrideCheck.Toml

/-- A decimal digit. -/
def isDigit (x : Char) : Bool := '0' ≤ x && x ≤ '9'

/-- The digits after the first one: each underscore stands between two digits. -/
def moreDigits (isDigit : Char → Bool) (fuel : Nat) (c : Cursor) : Option (List Char × Cursor) :=
  match fuel with
  | 0 => some ([], c)
  | fuel + 1 =>
    match c.rest with
    | '_' :: _ => do
      let (x, c) ← take isDigit c.step
      let (rest, c) ← moreDigits isDigit fuel c
      return (x :: rest, c)
    | x :: _ =>
      if isDigit x then do
        let (rest, c) ← moreDigits isDigit fuel c.step
        return (x :: rest, c)
      else some ([], c)
    | [] => some ([], c)

/-- Digits, at least one. -/
def radixDigits (isDigit : Char → Bool) : Scan (List Char) := fun c => do
  let (x, c) ← take isDigit c
  let (rest, c) ← moreDigits isDigit c.rest.length c
  return (x :: rest, c)

/-- The digits of a whole number: no other follows a leading zero. -/
def wholeDigits : Scan (List Char) := fun c =>
  if c.startsWith ['0'] then some (['0'], c.step) else radixDigits isDigit c

/-- The value of digits in a radix. -/
def digitsValue (radix : Nat) (digits : List Char) : Nat :=
  digits.foldl (fun value x =>
    value * radix + (if isDigit x then x.toNat - 48 else x.toLower.toNat - 87)) 0

/-- An integer that has to be one of 64 bits. -/
def boundedInteger (span : ByteSpan) (value : Int) : Option Node :=
  if Int64.minValue.toInt ≤ value ∧ value ≤ Int64.maxValue.toInt then some (.integer span value)
  else none

/-- An integer in a radix other than ten, of which the two characters that tell it are taken. -/
def radixInteger (start radix : Nat) (isDigit : Char → Bool) : Scan Node := fun c => do
  let (digits, c) ← radixDigits isDigit c
  return (← boundedInteger ⟨start, c.offset⟩ (digitsValue radix digits), c)

/-- A sign. -/
def sign (c : Cursor) : Bool × Cursor :=
  match c.rest with
  | '-' :: _ => (true, c.step)
  | '+' :: _ => (false, c.step)
  | _ => (false, c)

/-- The double of a decimal number with an exponent of ten. A positive one must not be infinite. -/
def boundedFloat (span : ByteSpan) (negative : Bool) (mantissa : Nat) (exponent : Int) :
    Option Node :=
  let magnitude :=
    if mantissa = 0 then 0
    else if exponent > 400 then powerBeyond
    else if exponent < -(Nat.toDigits 10 mantissa).length - 400 then 0
    else Float.ofScientific mantissa (exponent < 0) exponent.natAbs
  if negative then some (.float span (-magnitude))
  else if magnitude.isInf then none
  else some (.float span magnitude)
where
  /-- What a number too large for a double comes to. -/
  powerBeyond : Float := Float.ofScientific 1 false 400

/-- The fraction of a number, if it has one. -/
def fraction : Scan (Option (List Char)) := fun c =>
  if c.startsWith ['.'] then do
    let (digits, c) ← radixDigits isDigit c.step
    return (some digits, c)
  else some (none, c)

/-- The exponent of a number, if it has one. -/
def exponent : Scan (Option Int) := fun c =>
  if c.startsWith ['e'] || c.startsWith ['E'] then do
    let (negative, c) := sign c.step
    let (digits, c) ← radixDigits isDigit c
    let value : Int := digitsValue 10 digits
    return (some (if negative then -value else value), c)
  else some (none, c)

/-- A number, from its sign or first digit: an integer, unless it has a fraction or an exponent or
is one of the two words for numbers that are none. -/
def number : Scan Node := fun c => do
  let start := c.offset
  if c.startsWith ['0', 'x'] then
    radixInteger start 16 (fun x => isDigit x || ('a' ≤ x && x ≤ 'f') || ('A' ≤ x && x ≤ 'F'))
      (c.skip 2)
  else if c.startsWith ['0', 'o'] then radixInteger start 8 (fun x => '0' ≤ x && x ≤ '7') (c.skip 2)
  else if c.startsWith ['0', 'b'] then radixInteger start 2 (fun x => x = '0' || x = '1') (c.skip 2)
  else
    let (negative, c) := sign c
    if c.startsWith ['i', 'n', 'f'] then
      let c := c.skip 3
      let infinite : Float := 1 / 0
      return (.float ⟨start, c.offset⟩ (if negative then -infinite else infinite), c)
    else if c.startsWith ['n', 'a', 'n'] then
      let c := c.skip 3
      return (.float ⟨start, c.offset⟩ (0 / 0), c)
    else
      let (whole, c) ← wholeDigits c
      let (fraction, c) ← fraction c
      let (exponent, c) ← exponent c
      let span : ByteSpan := ⟨start, c.offset⟩
      match fraction, exponent with
      | none, none =>
        let value : Int := digitsValue 10 whole
        return (← boundedInteger span (if negative then -value else value), c)
      | _, _ =>
        let fraction := fraction.getD []
        let mantissa := digitsValue 10 (whole ++ fraction)
        let node ← boundedFloat span negative mantissa (exponent.getD 0 - fraction.length)
        return (node, c)

/-! ### Dates and times -/

/-- A number of exactly `n` digits. -/
def fixedDigits : Nat → Nat → Scan Nat
  | 0, value, c => some (value, c)
  | n + 1, value, c => do
    let (x, c) ← take isDigit c
    fixedDigits n (value * 10 + (x.toNat - 48)) c

/-- A number of two digits in a range. -/
def twoDigits (low high : Nat) : Scan Nat := fun c => do
  let (n, c) ← fixedDigits 2 0 c
  if low ≤ n && n ≤ high then some (n, c) else none

/-- The number of days of a month. -/
def daysOf (year month : Nat) : Nat :=
  let leap := year % 4 = 0 && (year % 100 != 0 || year % 400 = 0)
  if month = 2 then if leap then 29 else 28
  else if month = 4 || month = 6 || month = 9 || month = 11 then 30
  else 31

/-- A date. -/
def date (c : Cursor) : Option Cursor := do
  let (year, c) ← fixedDigits 4 0 c
  let ((), c) ← takeText ['-'] c
  let (month, c) ← twoDigits 1 12 c
  let ((), c) ← takeText ['-'] c
  let (_, c) ← twoDigits 1 (daysOf year month) c
  return c

/-- A time of day, in which a minute may have one second more. -/
def time (c : Cursor) : Option Cursor := do
  let (_, c) ← twoDigits 0 23 c
  let ((), c) ← takeText [':'] c
  let (_, c) ← twoDigits 0 59 c
  let ((), c) ← takeText [':'] c
  let (_, c) ← twoDigits 0 60 c
  if c.startsWith ['.'] then
    let (_, c) ← take isDigit c.step
    return (c.takeWhile isDigit).2
  else return c

/-- The offset of a time from universal time, if it is given. -/
def zone (c : Cursor) : Option Cursor :=
  match c.rest with
  | 'Z' :: _ | 'z' :: _ => some c.step
  | '+' :: _ | '-' :: _ => do
    let (_, c) ← twoDigits 0 23 c.step
    let ((), c) ← takeText [':'] c
    let (_, c) ← twoDigits 0 59 c
    return c
  | _ => some c

/-- The text goes on with a number of digits and the given mark. -/
def startsWithDigits (n : Nat) (mark : Char) (c : Cursor) : Bool :=
  match fixedDigits n 0 c with
  | some (_, c) => c.startsWith [mark]
  | none => false

/-- A date, a time of day or both; `none` if the text goes on with neither. -/
def dateTime? (c : Cursor) : Option (Option Cursor) :=
  if startsWithDigits 4 '-' c then some do
    let c ← date c
    match c.rest with
    | x :: _ =>
      if (x = 'T' || x = 't' || x = ' ') && startsWithDigits 2 ':' c.step then
        zone (← time c.step)
      else return c
    | [] => return c
  else if startsWithDigits 2 ':' c then some (time c)
  else none

/-- A value without structure, other than a string. -/
def scalar : Scan Node := fun c => do
  let word (text : List Char) (value : Bool) : Option (Node × Cursor) := do
    let ((), stop) ← takeText text c
    return (.boolean ⟨c.offset, stop.offset⟩ value, stop)
  match ← c.next? with
  | 't' => word ['t', 'r', 'u', 'e'] true
  | 'f' => word ['f', 'a', 'l', 's', 'e'] false
  | _ =>
    match dateTime? c with
    | some stop? =>
      let stop ← stop?
      return (.datetime ⟨c.offset, stop.offset⟩, stop)
    | none => number c

end OverrideCheck.Toml
