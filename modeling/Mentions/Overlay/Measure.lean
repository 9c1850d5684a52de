import Mentions.Overlay.Segment

/-!
# Measuring text

The host measures text in its own font. A `Measure` asks it for the width of a text and knows the
distance between two lines; asking may fail and may have effects, so it lives in a monad. Lengths
are of any type with the few operations of `Extent`, of which doubles are the instance that runs.
-/

namespace Mentions.Overlay

/-- Lengths that can be added up. -/
class Extent (α : Type) where
  zero : α
  add : α → α → α
  /-- So many times a length. -/
  times : Nat → α → α
  /-- Whether a length can be drawn: it is finite and not below zero. -/
  isValid : α → Bool

instance : Extent Float where
  zero := 0.0
  add := (· + ·)
  times n x := Float.ofNat n * x
  isValid x := x.isFinite && !(x < 0.0)

/-- Why measuring failed. -/
inductive MeasureError (α : Type)
  /-- The host failed, and says why. -/
  | host (reason : Text)
  | invalidWidth (width : α)
  | invalidLineHeight (height : α)
  deriving DecidableEq, Repr

/-- The wording of a failure, given how lengths are written. -/
def MeasureError.message {α : Type} (write : α → Text) : MeasureError α → Text
  | host reason => "Host measurement failed: ".toList ++ reason
  | invalidWidth w => "Invalid measured width: ".toList ++ write w
  | invalidLineHeight h => "Invalid line height: ".toList ++ write h

/-- The host's way to measure. -/
structure Measure (m : Type → Type) (α : Type) where
  /-- The width of a text that is drawn as the given kind. -/
  width : Text → SegmentKind → ExceptT (MeasureError α) m α
  /-- The distance between two lines. -/
  lineHeight : α

namespace Measure

variable {m : Type → Type} [Monad m] {α : Type} [Extent α]

/-- The width of a text, if it can be drawn. Nothing is asked about the empty text. -/
def widthOf (measure : Measure m α) (t : Text) (kind : SegmentKind) :
    ExceptT (MeasureError α) m α :=
  if t.isEmpty then pure Extent.zero
  else do
    let w ← measure.width t kind
    if Extent.isValid w then pure w else throw (.invalidWidth w)

end Measure

end Mentions.Overlay
