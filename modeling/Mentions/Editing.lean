import Mentions.Atomic.Intercept
import Mentions.Growth.Insertion
import Mentions.Growth.Repair

/-!
# Edits as a host makes them

A host sends every key press through `Config.handleKey` and every other edit through `Config.apply`:
insertions are guarded, movements and deletions keep mentions whole. Both pass a segmenter on to the
edits that work by words. After a click, or when the buffer has been replaced, `Config.clamp` finds
the nearest cursor that is no mention's interior.
-/

namespace Mentions.Config

/-- What becomes of an edit at a cursor. -/
def apply (config : Config) (buffer : Text) (cursor : Nat) (intent : Intent)
    (words : Word.Segmenter := .standard) : Outcome :=
  match intent with
  | .insertChar c =>
    let edit := Growth.insertGuarded config buffer cursor c
    if edit.applied then .replace edit.buffer edit.cursor else .pass
  | intent => Atomic.intercept config buffer cursor intent words

/-- What becomes of a key press at a cursor. A key that asks for no edit is left to the host. -/
def handleKey (config : Config) (buffer : Text) (cursor : Nat) (e : KeyEvent)
    (words : Word.Segmenter := .standard) : Outcome :=
  match e.intent? with
  | some intent => config.apply buffer cursor intent words
  | none => .pass

/-- The cursor that a click ends up with: within the buffer, between two characters, and at the
nearer end of a mention rather than inside it. -/
def clamp (config : Config) (buffer : Text) (cursor : Nat) : Nat :=
  let pos := buffer.floor cursor
  match Span.around? (scan config.marker buffer) pos with
  | some s => s.nearerEnd pos
  | none => pos

end Mentions.Config
