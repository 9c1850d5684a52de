import Mentions.Log.Event
import Mentions.Overlay.Caret

/-!
# Layouts

A layout is what an overlay draws: segments, and a caret if a cursor is given. If measuring fails,
the overlay degrades to the raw text without a caret, so that the user still sees what the buffer
holds. `Layout.attempt` is the layout or the failure, `Layout.make` what is drawn in either case.
-/

namespace Mentions.Overlay

/-- What an overlay draws. -/
structure Layout (α : Type) where
  segments : List Segment
  caret? : Option (Caret α)
  /-- Whether the layout failed, and the segments hold the raw text. -/
  degraded : Bool
  deriving DecidableEq, Repr

namespace Layout

variable {m : Type → Type} [Monad m] {α : Type} [Extent α]

/-- The whole buffer as one segment of text, without a caret. -/
def raw (buffer : Text) : Layout α :=
  let content := strip buffer
  ⟨if content.isEmpty then [] else [⟨.text, content, 0, Text.units buffer, none⟩], none, true⟩

/-- The layout of a buffer, or why it cannot be measured. Without a cursor nothing is measured. -/
def attempt (marker : Char) (displayName? : Text → Option Text) (measure : Measure m α)
    (buffer : Text) (cursor? : Option Nat) : ExceptT (MeasureError α) m (Layout α) :=
  let segments := Segment.ofBuffer marker displayName? buffer
  match cursor? with
  | none => pure ⟨segments, none, false⟩
  | some cursor => do
    let caret ← Caret.place measure buffer segments cursor
    pure ⟨segments, some caret, false⟩

/-- What is drawn after an attempt: its layout, or the raw text if it failed. -/
def orRaw (buffer : Text) : Except (MeasureError α) (Layout α) → Layout α
  | .ok layout => layout
  | .error _ => raw buffer

/-- What is worth a record after an attempt. -/
def events (write : α → Text) : Except (MeasureError α) (Layout α) → List Log.Event
  | .ok _ => []
  | .error e => [.degraded (e.message write)]

/-- The layout of a buffer, or its raw text if it cannot be measured. -/
def make (marker : Char) (displayName? : Text → Option Text) (measure : Measure m α)
    (buffer : Text) (cursor? : Option Nat) : m (Layout α) :=
  orRaw buffer <$> (attempt marker displayName? measure buffer cursor?).run

end Layout

end Mentions.Overlay
