import Mentions.Number.Double

/-!
# The shortest decimal that reads back

A double is written with the fewest significant digits that read back as the same double, and of
those numbers the nearest to it. The reals that round to a double form an interval around it
(`Interval`), whose ends belong to it if the mantissa is even. For one digit, then two, and so on,
the two neighbours of the double on that decimal grid are tried in exact arithmetic
(`Interval.onGrid?`), and the first grid with a hit wins.

`Double.text` writes the digits out in full: without an exponent, and without a point behind a whole
number.
-/

namespace Mentions

/-- The reals that round to a double, all as multiples of one unit. -/
structure Interval where
  low : Nat
  value : Nat
  high : Nat
  /-- Whether the two ends round to the double as well. -/
  closed : Bool
  deriving DecidableEq, Repr

namespace Interval

/-- Whether a number rounds to the double. -/
def holds (i : Interval) (n : Nat) : Bool :=
  if i.closed then i.low ≤ n && n ≤ i.high else i.low < n && n < i.high

/-- The number of steps of a grid to the nearer of the value's neighbours on it, among those that
round to the double. Of two that are equally near the greater one is taken. -/
def onGrid? (i : Interval) (step : Nat) : Option Nat :=
  let below := i.value / step
  let above := below + 1
  if i.holds (below * step) then
    if i.holds (above * step) && above * step - i.value ≤ i.value - below * step then some above
    else some below
  else if i.holds (above * step) then some above
  else none

/-- The first hit on the grids with the steps `unit * 10 ^ k`, for `k` from `fuel` downwards, with
its `k`; on the finest grid the value itself, cut off. -/
def shortest (i : Interval) (unit : Nat) : (k fuel : Nat) → Nat × Nat
  | k, 0 => (i.value / (unit * Nat.pow 10 k), k)
  | k, fuel + 1 =>
    match i.onGrid? (unit * Nat.pow 10 k) with
    | some n => (n, k)
    | none => shortest i unit (k - 1) fuel

end Interval

namespace Double

/-- Decimal places that are enough for every double. -/
def places : Nat := 400

/-- The digits of a number that is not below zero, the first one not zero. -/
def digits (n : Nat) : Text := Nat.toDigits 10 n

/-- The interval of the double `mantissa * 2 ^ scale / 2 ^ 1074`, in units of
`1 / (2 ^ 1076 * 10 ^ places)`. The gap below a power of two is half the gap above it. -/
def interval (mantissa scale : Nat) : Interval :=
  let quarter := Nat.pow 2 scale * Nat.pow 10 places
  let value := 4 * mantissa * quarter
  let gapBelow := if mantissa = Nat.pow 2 52 && scale ≠ 0 then quarter else 2 * quarter
  ⟨value - gapBelow, value, value + 2 * quarter, mantissa % 2 = 0⟩

/-- The shortest decimal of a positive double: the number `n / 10 ^ places` times `10 ^ k`. -/
def decimal (mantissa scale : Nat) : Nat × Nat :=
  let i := interval mantissa scale
  let whole := (digits (i.value / Nat.pow 2 1076)).length
  i.shortest (Nat.pow 2 1076) (whole - 1) 17

/-- Removes the zeros at the end of a text. -/
def dropZeros (t : Text) : Text := (t.reverse.dropWhile (· = '0')).reverse

/-- Writes the number `n * 10 ^ k / 10 ^ places` in full. -/
def positional (n k : Nat) : Text :=
  let all := digits (n * Nat.pow 10 k)
  let padded := List.replicate (places + 1 - all.length) '0' ++ all
  let whole := padded.take (padded.length - places)
  let fraction := dropZeros (padded.drop (padded.length - places))
  if fraction.isEmpty then whole else whole ++ '.' :: fraction

/-- A double as text. -/
def text : Double → Text
  | notANumber => "NaN".toList
  | infinite negative => (if negative then ['-'] else []) ++ "inf".toList
  | finite negative mantissa scale =>
    (if negative then ['-'] else []) ++
      if mantissa = 0 then ['0']
      else
        let (n, k) := decimal mantissa scale
        positional n k

end Double

end Mentions
