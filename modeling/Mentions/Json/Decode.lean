import Mentions.Json.Magnitude

/-!
# Taking values apart

The steps that the JSON forms of the library's types are read with. Each of them gives `none` for a
value that is not of the wanted form; `null` is nothing but itself. A record may be spelled as an
object, whose unknown members are passed over, or as an array of its fields in order.
-/

namespace Mentions.Json

/-! ## Single values -/

/-- A truth value. -/
def bool? : Json → Option Bool
  | .bool b => some b
  | _ => none

/-- A string that has a text. -/
def text? : Json → Option Text
  | .string s => s
  | _ => none

/-- A string of one character. -/
def char? (j : Json) : Option Char :=
  match j.text? with
  | some [c] => some c
  | _ => none

/-- A natural number that is no greater than an offset can be. -/
def offset? : Json → Option Nat
  | .number n =>
    match n.natural? with
    | some k => if k ≤ maxOffset then some k else none
    | none => none
  | _ => none

/-- A number that is not too great for a double. -/
def double? : Json → Option Float
  | .number n => n.double?
  | _ => none

/-- An array of values of one form. -/
def list? {α : Type} (form : Json → Option α) : Json → Option (List α)
  | .array items => items.mapM form
  | _ => none

/-- A value that may be missing, which `null` says. -/
def nullable? {α : Type} (form : Json → Option α) : Json → Option (Option α)
  | .null => some none
  | j => (form j).map some

/-! ## Records -/

/-- The member of the given name: `none` if there are several, `some none` if there is none. -/
def member? (members : List (Option Text × Json)) (name : String) : Option (Option Json) :=
  match members.filter fun m => m.1 = some name.toList with
  | [] => some none
  | [(_, j)] => some (some j)
  | _ => none

/-- The fields of a record with the given names, each of which may be missing. All names in an
object have to have a text. -/
def fields? (names : List String) : Json → Option (List (Option Json))
  | .array items =>
    if items.length ≤ names.length then
      some (items.map some ++ List.replicate (names.length - items.length) none)
    else none
  | .object members =>
    if members.all fun m => m.1.isSome then names.mapM (member? members) else none
  | _ => none

/-- A field that has to be there. -/
def required {α : Type} (form : Json → Option α) : Option Json → Option α
  | some j => form j
  | none => none

/-- A field with a value to stand in for it. -/
def withDefault {α : Type} (form : Json → Option α) (value : α) : Option Json → Option α
  | some j => form j
  | none => some value

/-! ## Values that are read in full -/

mutual

/-- Whether every string within a value has a text and every number a double. -/
def isReadable : Json → Bool
  | .number n => n.double?.isSome
  | .string s => s.isSome
  | .array items => areReadable items
  | .object members => haveReadable members
  | _ => true

/-- Whether all values of a list are readable. -/
def areReadable : List Json → Bool
  | [] => true
  | j :: rest => isReadable j && areReadable rest

/-- Whether all names and values of an object's members are readable. -/
def haveReadable : List (Option Text × Json) → Bool
  | [] => true
  | (name, j) :: rest => name.isSome && isReadable j && haveReadable rest

end

/-- The number of arrays and objects that may be open at once in a value that is read in full. -/
def maxDepth : Nat := 127

end Mentions.Json
