import Mentions.Outcome
import Mentions.Scan
import Mentions.Word.Segmentation

/-!
# Moving the cursor over mentions

A mention is one unit for the cursor: a movement that would land inside one goes on to its far end,
and one that starts inside leaves it. Each function says what becomes of one kind of movement in a
buffer with the given mentions; it passes where the host's own movement stays clear of them all.
-/

namespace Mentions.Atomic

/-- The mention that a movement to the left from the cursor would enter or leave. -/
def ahead? (spans : List Span) (cursor : Nat) : Option Span :=
  spans.find? fun s => s.start < cursor && cursor ≤ s.stop

/-- One character to the left: a mention that ends at the cursor or is around it is stepped over. -/
def moveLeft (spans : List Span) (cursor : Nat) : Outcome :=
  match ahead? spans cursor with
  | some s => .moveTo s.start
  | none => .pass

/-- One character to the right: a mention that starts within the step or is around the cursor is
stepped over. So one that starts where the step would land is entered and left at once. -/
def moveRight (buffer : Text) (spans : List Span) (cursor : Nat) : Outcome :=
  let landing :=
    match buffer.charAt? cursor with
    | some c => cursor + Text.unitsOf c
    | none => cursor
  match spans.find? fun s => s.start ≤ landing && cursor < s.stop with
  | some s => .moveTo s.stop
  | none => .pass

/-- The start of the line that the cursor is in. -/
def lineStart (buffer : Text) (cursor : Nat) : Nat :=
  match buffer.cut? cursor with
  | some (before, _) => Text.units (takeThrough (· = '\n') before)
  | none => 0

/-- To the start of the line: the jump stops at the end of the last mention that lies between the
line's start and the cursor, and leaves the mention around the cursor if there is no other. -/
def moveHome (buffer : Text) (spans : List Span) (cursor : Nat) : Outcome :=
  let origin := lineStart buffer cursor
  match (spans.filter fun s => origin ≤ s.start && s.stop < cursor).getLast? with
  | some s => .moveTo s.stop
  | none =>
    match Span.around? spans cursor with
    | some s => .moveTo s.start
    | none => .pass

/-- To the end of the line: the jump leaves the mention around the cursor. -/
def moveEnd (spans : List Span) (cursor : Nat) : Outcome :=
  match Span.around? spans cursor with
  | some s => .moveTo s.stop
  | none => .pass

/-- One word to the left: over the mention that ends at the cursor or is around it, or to the start
of the mention that the jump would land in. -/
def wordLeft (buffer : Text) (spans : List Span) (cursor : Nat) (words : Word.Segmenter) :
    Outcome :=
  match ahead? spans cursor with
  | some s => .moveTo s.start
  | none =>
    match (words.backward.previousStart? buffer cursor).bind (Span.around? spans) with
    | some s => .moveTo s.start
    | none => .pass

/-- One word to the right: over the mention that starts at the cursor or is around it, or to the end
of the mention that the jump would land in. -/
def wordRight (buffer : Text) (spans : List Span) (cursor : Nat) (words : Word.Segmenter) :
    Outcome :=
  match spans.find? fun s => s.start ≤ cursor && cursor < s.stop with
  | some s => .moveTo s.stop
  | none =>
    match (words.forward.nextEnd? buffer cursor).bind (Span.around? spans) with
    | some s => .moveTo s.stop
    | none => .pass

end Mentions.Atomic
