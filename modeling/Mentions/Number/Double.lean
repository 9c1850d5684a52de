import Mentions.Text.Units

/-!
# Doubles as exact numbers

A double that is finite is an integer times a power of two. `Double.ofBits` reads its bits as such,
and `Double.offset?` says which offset it stands for, if a host passes it as one.
-/

namespace Mentions

/-- What the bits of a double mean. -/
inductive Double
  | notANumber
  | infinite (negative : Bool)
  /-- The number `mantissa * 2 ^ scale / 2 ^ 1074`. -/
  | finite (negative : Bool) (mantissa scale : Nat)
  deriving DecidableEq, Repr

namespace Double

/-- Reads the 64 bits of a double: a sign, 11 bits of exponent and 52 bits of fraction. -/
def ofBits (bits : Nat) : Double :=
  let negative := bits / Nat.pow 2 63 % 2 = 1
  let exponent := bits / Nat.pow 2 52 % Nat.pow 2 11
  let fraction := bits % Nat.pow 2 52
  if exponent = Nat.pow 2 11 - 1 then
    if fraction = 0 then infinite negative else notANumber
  else if exponent = 0 then finite negative fraction 0
  else finite negative (Nat.pow 2 52 + fraction) (exponent - 1)

/-- The exact reading of a double. -/
def ofFloat (x : Float) : Double := ofBits x.toBits.toNat

/-- The offset that a double stands for: it has to be whole and not below zero, and one that is too
great stands for the greatest offset. -/
def offset? : Double → Option Nat
  | finite negative mantissa scale =>
    if negative && mantissa ≠ 0 then none
    else if mantissa * Nat.pow 2 scale % Nat.pow 2 1074 = 0 then
      some (min (mantissa * Nat.pow 2 scale / Nat.pow 2 1074) maxOffset)
    else none
  | _ => none

end Double

end Mentions
