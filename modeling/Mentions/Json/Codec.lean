import Mentions.Json.Reader
import Mentions.Json.Writer

/-!
# Text codecs for JSON

A `Codec` says how values are spelled as text. The forms of the library's types are values, and
whatever exchanges them as text takes a codec as an argument. A program that brings none of its own
works with `Codec.standard`, the reader and the writer of the library.
-/

namespace Mentions.Json

/-- A way to read values from text and to write them. -/
structure Codec where
  /-- The value that a text spells, if it spells one. -/
  read : Text → Option Json
  /-- The text of a value. -/
  write : Json → Text

namespace Codec

/-- The library's own reader and writer. -/
def standard : Codec := ⟨Json.read, Json.write⟩

/-- The value of a type that a text spells the form of. -/
def decode? {α : Type} (codec : Codec) (ofJson? : Json → Option α) (t : Text) : Option α :=
  (codec.read t).bind ofJson?

end Codec

end Mentions.Json
