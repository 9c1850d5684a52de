import Mentions.Config
import Mentions.Scan

/-!
# Repairing mentions that have grown

An edit may join text to a mention, so that the scan reports a longer one. `repair` finds the places
where mentions have to be cut and inserts invisible separators there, after which the scan reports
the shorter mentions again. With the buffer before the edit, a mention is cut where it ended before
(`grownCuts`); without it, only the shape of a mention can tell (`shapeCuts`), and a long but honest
name is cut as well.
-/

namespace Mentions.Growth

/-- The end of the old mention at the start of a mention that has grown from it. -/
def grownCut? (previous : List Span) (now : Span) : Option Nat :=
  match Span.startingAt? previous now.start with
  | some before =>
    if before.text.length < now.text.length && before.text.isPrefixOf now.text then
      some (now.start + Text.units before.text)
    else none
  | none => none

/-- Where mentions have to be cut so that they are again what they were before. -/
def grownCuts (current previous : List Span) : List Nat := current.filterMap (grownCut? previous)

/-- Whether the shape of a mention suggests that text has been joined to it. -/
def isSuspicious (config : Config) (s : Span) : Bool :=
  s.username.any Text.isBlankChar || s.username.any (fun c => !isBodyChar c)
    || config.maxLength < s.length

/-- The place up to which a suspicious mention is within the length limit, if any of its body is and
not all of it. -/
def shapeCut? (config : Config) (s : Span) : Option Nat :=
  if isSuspicious config s then
    let width := Text.unitsOf config.marker
    let kept := bodyLength s.username (config.maxLength - width)
    let cut := s.start + width + kept
    if 0 < kept && cut < s.stop then some cut else none
  else none

/-- Where mentions have to be cut because of their shape. -/
def shapeCuts (config : Config) (spans : List Span) : List Nat :=
  spans.filterMap (shapeCut? config)

/-- Where a buffer has to be cut, given the buffer before the edit if it is known. -/
def cuts (config : Config) (buffer : Text) (previous? : Option Text) : List Nat :=
  let spans := scan config.marker buffer
  match previous? with
  | some previous => grownCuts spans (scan config.marker previous)
  | none => shapeCuts config spans

/-- Inserts a separator at each of the given offsets, which are in increasing order. The last one
comes first, so that the others stay valid. -/
def separate (separator buffer : Text) : List Nat → Text
  | [] => buffer
  | cut :: rest =>
    let done := separate separator buffer rest
    (done.splice? cut cut separator).getD done

/-- The separator that a repair inserts. -/
def separator : Option Text → Text
  | some _ => growthSeparator
  | none => shapeSeparator

/-- Cuts the mentions of a buffer that have grown. -/
def repair (config : Config) (buffer : Text) (previous? : Option Text) : Text :=
  separate (separator previous?) buffer (cuts config buffer previous?)

end Mentions.Growth
