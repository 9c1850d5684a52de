import Mentions.Scan

/-!
# Segments of an overlay

An overlay draws a buffer as a sequence of segments: mentions, shown under their display names, and
the text between them, shown without its invisible separators. Text of which nothing is visible has
no segment.
-/

namespace Mentions.Overlay

/-- How a segment is drawn. -/
inductive SegmentKind
  | text
  | mention
  deriving DecidableEq, Repr

/-- The name of a kind. -/
def SegmentKind.name : SegmentKind → Text
  | text => "text".toList
  | mention => "mention".toList

/-- One run of an overlay. -/
structure Segment where
  kind : SegmentKind
  /-- What is shown. -/
  content : Text
  /-- The offset in the buffer where the segment starts. -/
  start : Nat
  /-- The offset in the buffer where the segment ends. -/
  stop : Nat
  /-- The mention, if the segment shows one. -/
  span? : Option Span
  deriving DecidableEq, Repr

/-- The segment of the text between two offsets, if anything of it is visible. -/
def plain (buffer : Text) (start stop : Nat) : List Segment :=
  if start < stop then
    match buffer.slice? start stop with
    | some t => if (strip t).isEmpty then [] else [⟨.text, strip t, start, stop, none⟩]
    | none => []
  else []

/-- The segment of a mention. A user whom the directory does not know is shown by username. -/
def mention (displayName? : Text → Option Text) (s : Span) : Segment :=
  ⟨.mention, (displayName? s.username).getD s.username, s.start, s.stop, some s⟩

/-- The segments of a buffer from an offset on, given the mentions after it. -/
def segmentsFrom (displayName? : Text → Option Text) (buffer : Text) (pos : Nat) :
    List Span → List Segment
  | [] => plain buffer pos (Text.units buffer)
  | s :: rest =>
    plain buffer pos s.start ++
      mention displayName? s :: segmentsFrom displayName? buffer s.stop rest

/-- The segments of a buffer, from left to right. -/
def Segment.ofBuffer (marker : Char) (displayName? : Text → Option Text) (buffer : Text) :
    List Segment :=
  segmentsFrom displayName? buffer 0 (scan marker buffer)

end Mentions.Overlay
