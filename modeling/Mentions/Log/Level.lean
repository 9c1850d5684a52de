import Mentions.Text.Units

/-!
# Log levels

Records have one of five levels, from errors down to traces. A threshold lets a level and everything
more severe through, or nothing at all; `Threshold.parse` reads one by name, in any case.
-/

namespace Mentions.Log

/-- How severe a record is. -/
inductive Level
  | error | warn | info | debug | trace
  deriving DecidableEq, Repr

namespace Level

/-- The rank of a level: the more severe, the lower. -/
def rank : Level → Nat
  | error => 1
  | warn => 2
  | info => 3
  | debug => 4
  | trace => 5

/-- The name of a level. -/
def name : Level → Text
  | error => "ERROR".toList
  | warn => "WARN".toList
  | info => "INFO".toList
  | debug => "DEBUG".toList
  | trace => "TRACE".toList

/-- All levels, the most severe first. -/
def all : List Level := [error, warn, info, debug, trace]

end Level

/-- The least severe level that is let through, if any is. -/
abbrev Threshold := Option Level

namespace Threshold

/-- Whether a record of the given level is let through. -/
def admits : Threshold → Level → Bool
  | none, _ => false
  | some least, level => level.rank ≤ least.rank

/-- The name of a threshold. -/
def name : Threshold → Text
  | none => "OFF".toList
  | some level => level.name

/-- The threshold in force where none has been chosen. -/
def standard : Threshold := some .warn

/-- The threshold of the given name, in upper or lower case; an unknown name means the standard
one. -/
def parse (t : Text) : Threshold :=
  let upper := t.map Char.toUpper
  if upper = "OFF".toList then none
  else
    match Level.all.find? fun level => level.name = upper with
    | some level => some level
    | none => standard

end Threshold

end Mentions.Log
