import Mentions.Grammar

/-!
# Spans

A span is one occurrence of a mention in a buffer: where its marker stands, where its last character
ends, and its text. A position is in the interior of a span if it is strictly between the two ends;
the ends themselves belong to no interior, so that the ends of neighbours may coincide.
-/

namespace Mentions

/-- One occurrence of a mention. -/
structure Span where
  /-- The offset of the marker. -/
  start : Nat
  /-- The offset after the last character. -/
  stop : Nat
  /-- The mention, with its marker. -/
  text : Text
  deriving DecidableEq, Repr

namespace Span

/-- The mention without its marker. -/
def username (s : Span) : Text := s.text.drop 1

/-- The number of units that the span covers. -/
def length (s : Span) : Nat := s.stop - s.start

/-- Whether the span covers nothing. -/
def isEmpty (s : Span) : Bool := s.start = s.stop

/-- Whether a position is strictly between the ends of the span. -/
def interior (s : Span) (pos : Nat) : Bool := s.start < pos && pos < s.stop

/-- The end of the span that is nearer to a position between the two, and of two equally near ones
the right one. -/
def nearerEnd (s : Span) (pos : Nat) : Nat :=
  if pos - s.start < s.stop - pos then s.start else s.stop

/-! ## Looking up a span by position -/

/-- The first span with the position in its interior. -/
def around? (spans : List Span) (pos : Nat) : Option Span := spans.find? (·.interior pos)

/-- The first span that starts at the position. -/
def startingAt? (spans : List Span) (pos : Nat) : Option Span := spans.find? (·.start = pos)

/-- The first span that ends at the position. -/
def endingAt? (spans : List Span) (pos : Nat) : Option Span := spans.find? (·.stop = pos)

end Span

end Mentions
