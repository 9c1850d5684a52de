import Mentions.Text.Units

/-!
# JSON values

A value keeps all that its text says and a reader may ask about: numbers as they are spelled, and
the members of an object in order, also those whose name occurs twice. Text in JSON may hold half of
a surrogate pair, which stands for no character; such a string has no text, but may be passed over.
-/

namespace Mentions

/-- A number as it is spelled. -/
structure Numeral where
  negative : Bool := false
  /-- The digits before the point, without a leading zero unless it is the only one. -/
  whole : Text
  /-- The digits after the point; none if there is no point. -/
  fraction : Text := []
  /-- The exponent, if there is one: whether it is below zero, and its digits. -/
  exponent? : Option (Bool × Text) := none
  deriving DecidableEq, Repr

/-- A JSON value. A string or name that holds half of a surrogate pair is `none`. -/
inductive Json
  | null
  | bool (b : Bool)
  | number (n : Numeral)
  | string (s : Option Text)
  | array (items : List Json)
  | object (members : List (Option Text × Json))
  deriving Repr

namespace Numeral

/-- The value of a digit. -/
def digit (c : Char) : Nat := c.toNat - '0'.toNat

/-- The value of a list of digits. -/
def valueOf (digits : Text) : Nat := digits.foldl (fun n c => 10 * n + digit c) 0

/-- A natural number. -/
def ofNat (n : Nat) : Numeral := { whole := Nat.toDigits 10 n }

/-- The natural number that a numeral spells as one, that is without sign, point and exponent. -/
def natural? (n : Numeral) : Option Nat :=
  if n.negative || !n.fraction.isEmpty || n.exponent?.isSome then none else some (valueOf n.whole)

end Numeral

namespace Json

/-- A string. -/
def ofText (t : Text) : Json := .string (some t)

/-- A natural number. -/
def ofNat (n : Nat) : Json := .number (.ofNat n)

/-- An object, given its members. -/
def ofMembers (members : List (String × Json)) : Json :=
  .object (members.map fun (name, j) => (some name.toList, j))

/-! ## Nesting -/

mutual

/-- How many arrays and objects are open at once within a value. -/
def depth : Json → Nat
  | .array items => depthOfItems items + 1
  | .object members => depthOfMembers members + 1
  | _ => 0

/-- The greatest depth of a list of values. -/
def depthOfItems : List Json → Nat
  | [] => 0
  | j :: rest => max (depth j) (depthOfItems rest)

/-- The greatest depth of the members of an object. -/
def depthOfMembers : List (Option Text × Json) → Nat
  | [] => 0
  | (_, j) :: rest => max (depth j) (depthOfMembers rest)

end

end Json

end Mentions
