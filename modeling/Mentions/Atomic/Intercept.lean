import Mentions.Atomic.Deletion
import Mentions.Atomic.Movement
import Mentions.Word.Piece

/-!
# Intercepting a movement or deletion

`intercept` looks at a pending edit and says what the host has to do so that mentions stay units. A
cursor that addresses no place in the buffer is never interfered with, and neither is an insertion.
Where words start and end is up to a segmenter, the standard one if no other is given.
-/

namespace Mentions.Atomic

/-- What becomes of an edit in a buffer with the given mentions. -/
def outcome (config : Config) (buffer : Text) (spans : List Span) (cursor : Nat)
    (intent : Intent) (words : Word.Segmenter) : Outcome :=
  match intent with
  | .moveLeft m =>
    if m.command then moveHome buffer spans cursor
    else if m.ctrl then wordLeft buffer spans cursor words
    else moveLeft spans cursor
  | .moveRight m =>
    if m.command then moveEnd spans cursor
    else if m.ctrl then wordRight buffer spans cursor words
    else moveRight buffer spans cursor
  | .moveHome => moveHome buffer spans cursor
  | .moveEnd => moveEnd spans cursor
  | .deleteBackward m => deleteBackward config buffer spans cursor m words
  | .deleteForward m => deleteForward buffer spans cursor m words
  | .insertChar _ => .pass

/-- What becomes of an edit at a cursor. -/
def intercept (config : Config) (buffer : Text) (cursor : Nat) (intent : Intent)
    (words : Word.Segmenter := .standard) : Outcome :=
  match buffer.cut? cursor with
  | some _ => outcome config buffer (scan config.marker buffer) cursor intent words
  | none => .pass

end Mentions.Atomic
