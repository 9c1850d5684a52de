import Mentions.Overlay.Measure

/-!
# Placing the caret

The caret is drawn where the cursor stands in the overlay, which shows other text than the buffer
holds. So the segments up to the cursor are measured one after the other: text moves the caret to
the right, a line break to the start of the next line, and a mention as a whole or not at all, to
the nearer of its ends.
-/

namespace Mentions.Overlay

/-- A place in the overlay, relative to its top left corner. -/
structure Caret (α : Type) where
  left : α
  top : α
  deriving DecidableEq, Repr

namespace Caret

variable {m : Type → Type} [Monad m] {α : Type} [Extent α]

/-- The top left corner. -/
def origin : Caret α := ⟨Extent.zero, Extent.zero⟩

/-- The text after the last line break of a text. -/
def lastLine (t : Text) : Text := (t.reverse.takeWhile (· ≠ '\n')).reverse

/-- The caret after a line break or several: at the left edge, so many lines down. -/
def breakLines (measure : Measure m α) (caret : Caret α) (n : Nat) :
    ExceptT (MeasureError α) m (Caret α) :=
  if n = 0 then pure caret
  else if Extent.isValid measure.lineHeight then
    pure ⟨Extent.zero, Extent.add caret.top (Extent.times n measure.lineHeight)⟩
  else throw (.invalidLineHeight measure.lineHeight)

/-- The caret after something of a given width. -/
def moveRight (caret : Caret α) (w : α) : Caret α := { caret with left := Extent.add caret.left w }

/-- The caret after a text. -/
def afterText (measure : Measure m α) (caret : Caret α) (t : Text) :
    ExceptT (MeasureError α) m (Caret α) := do
  let caret ← breakLines measure caret (t.count '\n')
  let w ← measure.widthOf (lastLine t) .text
  pure (caret.moveRight w)

/-- Whether the caret is drawn after a mention, rather than before it, if the cursor is beyond the
mention's start. -/
def isBeyond (cursor : Nat) (s : Segment) : Bool :=
  match s.span? with
  | some span => if cursor < s.stop then span.nearerEnd cursor = span.stop else true
  | none => true

/-- The caret after the part of a segment that lies before the cursor; `none` if there is no such
part of the buffer. -/
def afterSegment (measure : Measure m α) (buffer : Text) (cursor : Nat) (caret : Caret α)
    (s : Segment) : ExceptT (MeasureError α) m (Option (Caret α)) :=
  match s.kind with
  | .text =>
    match buffer.slice? s.start (min cursor s.stop) with
    | some t => some <$> caret.afterText measure (strip t)
    | none => pure none
  | .mention =>
    if isBeyond cursor s then do
      let w ← measure.widthOf s.content .mention
      pure (some (caret.moveRight w))
    else pure (some caret)

/-- The caret after those segments, and parts of segments, that lie before the cursor. -/
def afterSegments (measure : Measure m α) (buffer : Text) (cursor : Nat) (caret : Caret α) :
    List Segment → ExceptT (MeasureError α) m (Caret α)
  | [] => pure caret
  | s :: rest =>
    if cursor ≤ s.start then pure caret
    else do
      match ← caret.afterSegment measure buffer cursor s with
      | none => pure caret
      | some caret =>
        if cursor < s.stop then pure caret else afterSegments measure buffer cursor caret rest

/-- The caret for a cursor, which may be any number. -/
def place (measure : Measure m α) (buffer : Text) (segments : List Segment) (cursor : Nat) :
    ExceptT (MeasureError α) m (Caret α) :=
  origin.afterSegments measure buffer (buffer.floor cursor) segments

end Caret

end Mentions.Overlay
