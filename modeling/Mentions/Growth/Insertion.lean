import Mentions.Config
import Mentions.Outcome
import Mentions.Scan

/-!
# Typing at the end of a mention

A character typed at the end of a mention would become part of it. `insertGuarded` puts a space
between the two; everywhere else it leaves the insertion to the host.
-/

namespace Mentions.Growth

/-- Inserts a character after a mention that ends at the cursor, with a space before it. Otherwise
nothing is inserted. -/
def insertGuarded (config : Config) (buffer : Text) (cursor : Nat) (c : Char) : Edit :=
  let untouched : Edit := ⟨buffer, cursor, false⟩
  if config.guardBodyOnly && !isBodyChar c then untouched
  else
    match Span.endingAt? (scan config.marker buffer) cursor with
    | none => untouched
    | some _ =>
      match buffer.splice? cursor cursor [' ', c] with
      | some text => ⟨text, cursor + 1 + Text.unitsOf c, true⟩
      | none => untouched

end Mentions.Growth
