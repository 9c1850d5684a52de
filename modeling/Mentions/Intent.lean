import Mentions.Text.Units

/-!
# Key presses and what they intend

A key press arrives as the name of a key with its modifiers. `KeyEvent.intent?` says which edit it
asks for: a movement, a deletion or the insertion of a character. A character typed with a modifier
is a shortcut and asks for none.
-/

namespace Mentions

/-- The modifier keys that are held. -/
structure Modifiers where
  /-- Move or delete by words. -/
  ctrl : Bool := false
  /-- Move or delete to the end of the line. -/
  command : Bool := false
  deriving DecidableEq, Repr

/-- An edit that is asked for. -/
inductive Intent
  | moveLeft (m : Modifiers)
  | moveRight (m : Modifiers)
  | moveHome
  | moveEnd
  | deleteBackward (m : Modifiers)
  | deleteForward (m : Modifiers)
  | insertChar (c : Char)
  deriving DecidableEq, Repr

/-- A key press. -/
structure KeyEvent where
  key : Text
  mods : Modifiers := ⟨false, false⟩
  deriving DecidableEq, Repr

/-- The edit that a key press asks for, if it asks for one. -/
def KeyEvent.intent? (e : KeyEvent) : Option Intent :=
  if e.key = "ArrowLeft".toList then some (.moveLeft e.mods)
  else if e.key = "ArrowRight".toList then some (.moveRight e.mods)
  else if e.key = "Home".toList then some .moveHome
  else if e.key = "End".toList then some .moveEnd
  else if e.key = "Backspace".toList then some (.deleteBackward e.mods)
  else if e.key = "Delete".toList then some (.deleteForward e.mods)
  else
    match e.key with
    | [c] => if e.mods.ctrl || e.mods.command then none else some (.insertChar c)
    | _ => none

end Mentions
