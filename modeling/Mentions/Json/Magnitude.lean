import Mentions.Json.Basic

/-!
# Numbers as doubles

A number in JSON may have any number of digits. Its double is found in three steps: as many digits
as fit into 64 bits make up the significand, those that do not fit only move the point, and the
significand is then scaled by one power of ten, or several if it is very small. The result may be
off by a unit in the last place. A number that is too great for a double has none.
-/

namespace Mentions.Numeral

/-- The greatest significand. -/
def maxSignificand : Nat := 0xFFFFFFFFFFFFFFFF

/-- The significand after the digits before the point, and the number of digits left out, which are
all digits from the first one that does not fit. -/
def wholeDigits : (significand : Nat) → Text → Nat × Nat
  | s, [] => (s, 0)
  | s, c :: t =>
    if 10 * s + digit c ≤ maxSignificand then wholeDigits (10 * s + digit c) t
    else (s, t.length + 1)

/-- The significand after the digits behind the point, and the number of digits taken. -/
def fractionDigits : (significand : Nat) → Text → Nat × Nat
  | s, [] => (s, 0)
  | s, c :: t =>
    if 10 * s + digit c ≤ maxSignificand then
      let (s', n) := fractionDigits (10 * s + digit c) t
      (s', n + 1)
    else (s, 0)

/-- A power of ten, for exponents up to 308. -/
def powerOfTen (n : Nat) : Float := Float.ofScientific 1 false n

/-- A double divided by a power of ten, in steps of at most 308. -/
def shrink (x : Float) (n : Nat) : Float :=
  if n ≤ 308 then x / powerOfTen n
  else if x == 0.0 then x
  else shrink (x / powerOfTen 308) (n - 308)
termination_by n
decreasing_by omega

/-- A double multiplied with a power of ten; `none` if the product is too great. -/
def grow (x : Float) (n : Nat) : Option Float :=
  if n ≤ 308 then
    let y := x * powerOfTen n
    if y.isInf then none else some y
  else if x == 0.0 then some x
  else none

/-- The value of the exponent's digits, which matter only up to the greatest one that a reader of 32
bits can hold; `none` if they are beyond. -/
def exponentValue? (digits : Text) : Option Nat :=
  let n := valueOf digits
  if n < 0x80000000 then some n else none

/-- The double of a number without its sign. -/
def magnitude? (n : Numeral) : Option Float :=
  let (s, left) := wholeDigits 0 n.whole
  let (s, taken) := fractionDigits s n.fraction
  let x := Float.ofNat s
  let scale (e : Int) : Option Float :=
    if 0 ≤ e then grow x e.toNat else some (shrink x (-e).toNat)
  match n.exponent? with
  | none => scale ((left : Int) - taken)
  | some (negative, digits) =>
    match exponentValue? digits with
    | some e => scale ((left : Int) - taken + if negative then -(e : Int) else e)
    | none => if s ≠ 0 && !negative then none else some 0.0

/-- The double of a number, if it is not too great. -/
def double? (n : Numeral) : Option Float :=
  n.magnitude?.map fun x => if n.negative then -x else x

end Mentions.Numeral
