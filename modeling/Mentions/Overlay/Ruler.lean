import Mentions.Overlay.Measure

/-!
# A ruler

A `Ruler` measures text without a font: it looks a width up in a table, or multiplies a pitch with
the number of characters, units or bytes. It notes every text that it is asked about, and can be
made to fail after a number of answers. With it an overlay can be laid out where there is no screen.
-/

namespace Mentions.Overlay

/-- What a ruler counts. -/
inductive Pitch
  | characters
  | units
  | bytes
  /-- Each text as one. -/
  | texts
  deriving DecidableEq, Repr

/-- The number of things that a text is long. -/
def Pitch.count : Pitch → Text → Nat
  | characters, t => t.length
  | units, t => Text.units t
  | bytes, t => Text.bytes t
  | texts, _ => 1

/-- How a ruler answers. -/
structure Ruler (α : Type) where
  pitch : Pitch
  /-- The width of one thing in plain text. -/
  text : α
  /-- The width of one thing in a mention. -/
  mention : α
  lineHeight : α
  /-- Texts whose width is known. -/
  known : List (Text × α) := []
  /-- The number of answers after which the ruler fails, if it does. -/
  answers? : Option Nat := none
  /-- What the ruler says when it fails. -/
  failure : Text := []

namespace Ruler

/-- What a ruler has been asked. -/
structure Notes where
  asked : List (Text × SegmentKind) := []
  /-- The number of answers that have been given. -/
  answered : Nat := 0

variable {α : Type} [Extent α]

/-- The width of a text. -/
def width (r : Ruler α) (t : Text) (kind : SegmentKind) : α :=
  match r.known.find? (·.1 = t) with
  | some (_, w) => w
  | none =>
    Extent.times (r.pitch.count t)
      (match kind with
        | .text => r.text
        | .mention => r.mention)

/-- Whether the ruler fails after a number of answers. -/
def fails (r : Ruler α) (answered : Nat) : Bool :=
  match r.answers? with
  | some n => n ≤ answered
  | none => false

/-- The measure that a ruler is. -/
def measure (r : Ruler α) : Measure (StateM Notes) α where
  width t kind := do
    modify fun n => { n with asked := n.asked ++ [(t, kind)] }
    if r.fails (← get).answered then throw (.host r.failure)
    else
      modify fun n => { n with answered := n.answered + 1 }
      pure (r.width t kind)
  lineHeight := r.lineHeight

end Ruler

end Mentions.Overlay
