import OverrideCheck.Decimal.Shortest

/-!
# Decimal notation of doubles

How the digits of a double are laid out. Messages about settings write every number out in full;
messages about models use an exponent for very small and very large ones. Either way a whole
number keeps one zero behind its point, so that it is seen to be no integer. Of two decimals that
are equally short and equally near, messages about settings take the larger one and messages about
models the even one.

* `FloatLayout` — which numbers are written out in full, and how ties go;
* `FloatLayout.model`, `FloatLayout.settings` — the two layouts;
* `floatText` — the text of a double.
-/

namespace OverrideCheck

/-- A way of laying out the digits of a double. -/
structure FloatLayout where
  /-- Numbers whose first digit has this power of ten or a larger one are written in full, -/
  fullFrom : Option Int
  /-- … up to this one. -/
  fullTo : Option Int
  /-- Which of two equally short and equally near decimals is written. -/
  tie : TieRule

/-- Messages about models write numbers from `0.00001` up to sixteen digits in full. -/
def FloatLayout.model : FloatLayout := ⟨some (-5), some 15, .toEven⟩

/-- Messages about settings write every number in full. -/
def FloatLayout.settings : FloatLayout := ⟨none, none, .upward⟩

/-- A number whose first digit has the given power of ten is written in full. -/
def FloatLayout.isFull (l : FloatLayout) (power : Int) : Bool :=
  (match l.fullFrom with
    | some low => decide (low ≤ power)
    | none => true) &&
  match l.fullTo with
  | some high => decide (power ≤ high)
  | none => true

/-- The text of a list of digits. -/
def digitText (digits : List Nat) : String := String.ofList (digits.map Nat.digitChar)

/-- The text of a decimal written in full. -/
def Decimal.fullText (d : Decimal) : String :=
  let whole := d.digits.take d.point.toNat
  let zerosAfter := d.point.toNat - d.digits.length
  let wholeText := if whole.isEmpty then "0" else digitText (whole ++ List.replicate zerosAfter 0)
  let fraction := List.replicate (-d.point).toNat 0 ++ d.digits.drop d.point.toNat
  wholeText ++ "." ++ if fraction.isEmpty then "0" else digitText fraction

/-- The text of a decimal written with an exponent, which always has a sign. -/
def Decimal.exponentText (d : Decimal) : String :=
  let power := d.point - 1
  let fraction := d.digits.drop 1
  digitText (d.digits.take 1) ++ (if fraction.isEmpty then "" else "." ++ digitText fraction) ++
    "e" ++ (if power < 0 then "-" else "+") ++ Nat.repr power.natAbs

/-- The text of a double. -/
def floatText (layout : FloatLayout) (x : Float) : String :=
  if x.isNaN then "NaN"
  else
    let sign := if x.toBits.toNat ≥ Nat.pow 2 63 then "-" else ""
    let magnitude :=
      if x.isInf then "inf"
      else if x == 0 then "0.0"
      else
        let d := (Binary.ofFloat x).shortest layout.tie
        if layout.isFull (d.point - 1) then d.fullText else d.exponentText
    sign ++ magnitude

end OverrideCheck
