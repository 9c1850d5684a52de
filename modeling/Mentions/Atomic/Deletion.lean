import Mentions.Config
import Mentions.Intent
import Mentions.Outcome
import Mentions.Scan
import Mentions.Word.Segmentation

/-!
# Deleting mentions

A deletion takes a mention as a whole or not at all. One that would take a part of a mention is
widened to all of it, and one that starts inside a mention first moves the cursor out. Backspace on
the single space between a mention and the text after it does nothing, because the text would become
part of the mention.
-/

namespace Mentions.Atomic

/-- Removes the text between two offsets and puts the cursor at the first of them. -/
def remove (buffer : Text) (start stop : Nat) : Outcome :=
  match buffer.splice? start stop [] with
  | some text => .replace text start
  | none => .pass

/-- Whether the character before the cursor is a space that keeps a mention apart from visible text:
a mention ends before it, and the first visible character after it is not blank. -/
def isSeparating (buffer : Text) (spans : List Span) (cursor : Nat) : Bool :=
  0 < cursor && (Span.endingAt? spans (cursor - 1)).isSome
    && buffer.charAt? (cursor - 1) = some ' '
    && (((buffer.tail? cursor).bind fun t => t.find? fun c => !isZeroWidth c).any
      fun c => !Text.isBlankChar c)

/-- Deletion of a character, a word or the line before the cursor. -/
def deleteBackward (config : Config) (buffer : Text) (spans : List Span) (cursor : Nat)
    (m : Modifiers) (words : Word.Segmenter) : Outcome :=
  if m.command then
    match Span.around? spans cursor with
    | some s => .moveTo s.start
    | none => .pass
  else
    match Span.endingAt? spans cursor with
    | some s => remove buffer s.start s.stop
    | none =>
      if m.ctrl then
        match Span.around? spans cursor with
        | some s => .moveTo s.start
        | none =>
          match (words.backward.previousStart? buffer cursor).bind (Span.around? spans) with
          | some s => remove buffer s.start cursor
          | none => .pass
      else
        match Span.startingAt? spans cursor with
        | some s => remove buffer s.start s.stop
        | none =>
          match Span.around? spans cursor with
          | some s => .moveTo s.start
          | none =>
            if config.guardTrailingSpace && isSeparating buffer spans cursor then .suppress
            else .pass

/-- Deletion of a character, a word or the line after the cursor. -/
def deleteForward (buffer : Text) (spans : List Span) (cursor : Nat) (m : Modifiers)
    (words : Word.Segmenter) : Outcome :=
  match Span.around? spans cursor with
  | some s => .moveTo s.stop
  | none =>
    if m.command then .pass
    else
      match Span.startingAt? spans cursor with
      | some s => remove buffer s.start s.stop
      | none =>
        if m.ctrl then
          match (words.forward.nextEnd? buffer cursor).bind (Span.around? spans) with
          | some s => remove buffer cursor s.stop
          | none => .pass
        else .pass

end Mentions.Atomic
