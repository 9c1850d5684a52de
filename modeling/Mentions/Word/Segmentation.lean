import Mentions.Text.Blank

/-!
# Segmentations and word jumps

A segmentation cuts any text into pieces in a row: words, runs of spaces and single punctuation
marks alike. Which pieces these are is left open. A word jump is a search in them, from the cursor
outwards and past blank pieces: to the right for the end of the first other piece, to the left for
the start of the last one.

A `Segmenter` holds a segmentation for each direction, because the pieces that are found from the
end of a text need not be those that are found from its start. Every edit that works by words takes
one as an argument.
-/

namespace Mentions.Word

/-! ## Searching pieces -/

/-- The number of units up to the end of the first piece that is not blank. -/
def firstEndOf? (ps : List Text) : Option Nat :=
  match ps.dropWhile Text.isBlank with
  | [] => none
  | p :: _ => some (Text.units (ps.takeWhile Text.isBlank).flatten + Text.units p)

/-- The number of units up to the start of the last piece that is not blank. -/
def lastStartOf? (ps : List Text) : Option Nat :=
  match ps.reverse.dropWhile Text.isBlank with
  | [] => none
  | _ :: earlier => some (Text.units earlier.reverse.flatten)

/-! ## Segmentations -/

/-- A way to cut any text into pieces in a row, none of which is empty. -/
structure Segmentation where
  pieces : Text → List Text
  flatten_pieces : ∀ t, (pieces t).flatten = t
  ne_nil_of_mem : ∀ t, ∀ p ∈ pieces t, p ≠ []

namespace Segmentation

/-- Where a word jump to the left lands: the start of the last piece before the cursor that is not
blank. -/
def previousStart? (s : Segmentation) (buffer : Text) (cursor : Nat) : Option Nat := do
  let (before, _) ← buffer.cut? cursor
  lastStartOf? (s.pieces before)

/-- Where a word jump to the right lands: the end of the first piece after the cursor that is not
blank. -/
def nextEnd? (s : Segmentation) (buffer : Text) (cursor : Nat) : Option Nat := do
  let (_, after) ← buffer.cut? cursor
  let n ← firstEndOf? (s.pieces after)
  some (cursor + n)

end Segmentation

/-- A segmentation for each direction of a jump. -/
structure Segmenter where
  /-- Cuts the text before the cursor. -/
  backward : Segmentation
  /-- Cuts the text behind the cursor. -/
  forward : Segmentation

end Mentions.Word
