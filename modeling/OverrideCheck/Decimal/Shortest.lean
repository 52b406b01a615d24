/-!
# Shortest decimals of doubles

A double is shown by the fewest decimal digits that read back as the same double and, among
those, by the ones nearest to it. Everything is done on natural numbers: a double is taken apart
into a mantissa and a power of two, and the reals that round to it form an interval, whose ends
belong to it exactly when the mantissa is even.

* `Binary`, `Binary.ofFloat` — mantissa and exponent of a finite double;
* `Binary.interval` — the value and the ends of its interval, over a common denominator;
* `Decimal` — digits and the place of the decimal point;
* `TieRule` — which of two decimals is taken that are equally near;
* `Binary.shortest` — the decimal of a positive value.

For one digit, two digits and so on the two neighbours of the value on the decimal grid of that
many digits are tried, and the first grid with a hit wins. Seventeen digits are always enough.
-/

namespace OverrideCheck

/-- The positive value `mantissa * 2 ^ exponent`. -/
structure Binary where
  mantissa : Nat
  exponent : Int
  /-- The neighbour below is only half as far away as the one above. -/
  narrowBelow : Bool

/-- A value and the ends of the interval around it, as numerators over one denominator. -/
structure Interval where
  low : Nat
  value : Nat
  high : Nat
  denominator : Nat
  closed : Bool

/-- The decimal number `0.d₁d₂… * 10 ^ point`. -/
structure Decimal where
  digits : List Nat
  point : Int
deriving DecidableEq, Repr

/-- Which of two neighbours on a grid is taken when a value lies in the middle between them. -/
inductive TieRule
  /-- The one whose last digit is even. -/
  | toEven
  | upward
deriving DecidableEq, Repr

/-- The rule takes the lower neighbour, which is the given multiple of the grid's unit. -/
def TieRule.takesLower : TieRule → Nat → Bool
  | .toEven, n => n % 2 == 0
  | .upward, _ => false

namespace Binary

/-- The parts of a finite double, regardless of its sign. -/
def ofFloat (x : Float) : Binary :=
  let bits : Nat := x.toBits.toNat
  let field : Nat := bits / Nat.pow 2 52 % Nat.pow 2 11
  let fraction : Nat := bits % Nat.pow 2 52
  if field = 0 then ⟨fraction, -1074, false⟩
  else ⟨Nat.pow 2 52 + fraction, Int.ofNat field - 1075, fraction == 0 && field > 1⟩

/-- The reals that round to a value. -/
def interval (b : Binary) : Interval :=
  let scale (n : Nat) : Nat := n * Nat.pow 2 (b.exponent - 2).toNat
  { low := scale (4 * b.mantissa - (if b.narrowBelow then 1 else 2))
    value := scale (4 * b.mantissa)
    high := scale (4 * b.mantissa + 2)
    denominator := Nat.pow 2 (2 - b.exponent).toNat
    closed := b.mantissa % 2 == 0 }

end Binary

namespace Interval

/-- The number `n * 10 ^ place`, in units of one over the denominator, times `10 ^ lift`. -/
def gridPoint (i : Interval) (place : Int) (n : Nat) : Nat :=
  n * Nat.pow 10 place.toNat * i.denominator

/-- What the numerators are multiplied with to be compared with a grid point. -/
def lift (place : Int) : Nat := Nat.pow 10 (-place).toNat

/-- A grid point lies in the interval. -/
def contains (i : Interval) (place : Int) (n : Nat) : Bool :=
  let x := i.gridPoint place n
  let low := i.low * lift place
  let high := i.high * lift place
  if i.closed then low ≤ x && x ≤ high else low < x && x < high

/-- The point of the grid next to the value that lies in the interval, if one does; of two, the
nearer one, and of two that are equally near, the one the rule takes. -/
def hit? (i : Interval) (tie : TieRule) (place : Int) : Option Nat :=
  let value := i.value * lift place
  let unit := i.gridPoint place 1
  let below := value / unit
  let rest := value % unit
  match i.contains place below, i.contains place (below + 1) with
  | false, false => none
  | true, false => some below
  | false, true => some (below + 1)
  | true, true =>
    if 2 * rest < unit || (2 * rest = unit && tie.takesLower below) then some below
    else some (below + 1)

/-- The number of digits before the decimal point of a value of at least one. -/
def wholeDigits (i : Interval) : Nat := (Nat.toDigits 10 (i.value / i.denominator)).length

/-- The number of zeros right after the decimal point of a positive value below one, found in at
most `fuel` steps. -/
def leadingZeros (fuel : Nat) (value denominator : Nat) : Nat :=
  match fuel with
  | 0 => 0
  | fuel + 1 =>
    if value * 10 ≥ denominator then 0 else leadingZeros fuel (value * 10) denominator + 1

/-- The place of the decimal point: the value is less than `10 ^ magnitude` and not less than a
tenth of that. -/
def magnitude (i : Interval) : Int :=
  if i.value ≥ i.denominator then i.wholeDigits
  else -(leadingZeros 400 i.value i.denominator : Nat)

/-- The first grid with a hit, from `count` digits on, and the hit on it. -/
def search (i : Interval) (tie : TieRule) (magnitude : Int) (count : Nat) : Nat → Nat × Int
  | 0 => (0, 0)
  | fuel + 1 =>
    let place := magnitude - count
    match i.hit? tie place with
    | some n => (n, place)
    | none => search i tie magnitude (count + 1) fuel

end Interval

/-- The digits of a number without the zeros at its end. -/
def significantDigits (n : Nat) : List Nat :=
  (((Nat.toDigits 10 n).map fun c => c.toNat - 48).reverse.dropWhile (· == 0)).reverse

/-- The shortest decimal that reads back as a positive value. -/
def Binary.shortest (b : Binary) (tie : TieRule) : Decimal :=
  let i := b.interval
  let (n, place) := i.search tie i.magnitude 1 17
  ⟨significantDigits n, (Nat.toDigits 10 n).length + place⟩

end OverrideCheck
