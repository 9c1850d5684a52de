import Mentions.Grammar
import Mentions.Text.Blank
import Mentions.Text.Quoted

/-!
# Configuration

A configuration chooses the marker and the behaviour of the guards. Any configuration can be worked
with; `Config.validate` refuses those that no scan can honour: a marker that is a body character, is
invisible or is blank, and a length limit that leaves no room for a body. The marker is looked at
first.
-/

namespace Mentions

/-- The choices that a host makes. -/
structure Config where
  /-- The character that opens a mention. -/
  marker : Char := defaultMarker
  /-- The length, marker included, above which a mention's shape is taken for a mistake. -/
  maxLength : Nat := defaultMaxLength
  /-- Whether only characters that could extend a mention are kept apart from it. -/
  guardBodyOnly : Bool := false
  /-- Whether the single space between a mention and the text after it is kept from deletion. -/
  guardTrailingSpace : Bool := true
  deriving DecidableEq, Repr

/-- Why a configuration is refused. -/
inductive ConfigError
  /-- It cannot be read. -/
  | unreadable (reason : Text)
  /-- The marker could not be told from a mention's body or from blank text. -/
  | invalidMarker (marker : Char)
  /-- The limit leaves no room for a marker and a body. -/
  | maxLengthTooSmall
  deriving DecidableEq, Repr

/-- The wording of a refusal. -/
def ConfigError.message : ConfigError → Text
  | unreadable reason => "Invalid config: ".toList ++ reason
  | invalidMarker c =>
    "Invalid config: marker ".toList ++ Text.quoteChar c ++
      " collides with the mention body".toList
  | maxLengthTooSmall => "Invalid config: max_mention_len must be at least 2".toList

namespace Config

/-- Whether a character can open a mention. -/
def isMarker (c : Char) : Bool := !(isBodyChar c || isZeroWidth c || Text.isBlankChar c)

/-- Accepts a configuration that a scan can honour. -/
def validate (config : Config) : Except ConfigError Unit :=
  if isMarker config.marker then
    if config.maxLength < 2 then .error .maxLengthTooSmall else .ok ()
  else .error (.invalidMarker config.marker)

end Config

end Mentions
