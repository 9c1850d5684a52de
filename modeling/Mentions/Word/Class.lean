import Mentions.Word.Digits
import Mentions.Word.Letters
import Mentions.Word.Marks
import Mentions.Word.Pictographs

/-!
# Word-break classes

The default word boundaries of Unicode are stated on classes of characters. `Class.of` finds the
class of a character; it is the last place that looks at a code point, apart from the pictographs.
-/

namespace Mentions.Word

/-- The word-break class of a character. -/
inductive Class
  | letter | hebrew | digit | kana
  /-- Connecting punctuation, which binds to letters, digits and kana on both sides. -/
  | connector
  /-- Punctuation between letters, such as the colon. -/
  | midLetter
  /-- Punctuation between digits, such as the comma. -/
  | midNumber
  /-- Punctuation between letters or digits, such as the full stop. -/
  | midEither
  | apostrophe | quote | space
  /-- A carriage return, which a line feed may follow within one piece. -/
  | carriageReturn
  | lineFeed
  /-- Any other line break. -/
  | newline
  /-- A regional indicator: two of them form a flag. -/
  | flag
  /-- The zero width joiner. -/
  | joiner
  | mark | control | other
  deriving DecidableEq, Repr

namespace Class

/-- The class of a character. -/
def of (c : Char) : Class :=
  let n := c.toNat
  if isLetter n then letter
  else if digits.contains n then digit
  else if spaces.contains n then space
  else if n = 0x000D then carriageReturn
  else if n = 0x000A then lineFeed
  else if n = 0x000B || n = 0x000C || n = 0x0085 || n = 0x2028 || n = 0x2029 then newline
  else if n = 0x0027 then apostrophe
  else if n = 0x0022 then quote
  else if midBoth.contains n then midEither
  else if midLetters.contains n then midLetter
  else if midNumbers.contains n then midNumber
  else if connectors.contains n then connector
  else if n = 0x200D then joiner
  else if isControl n then control
  else if isMark n then mark
  else if katakana.contains n then kana
  else if hebrewLetters.contains n then hebrew
  else if 0x1F1E6 ≤ n && n ≤ 0x1F1FF then flag
  else other

/-- Marks, controls and the joiner belong to the character before them, whatever it is. -/
def isTransparent : Class → Bool
  | mark | control | joiner => true
  | _ => false

/-- Line breaks are pieces of their own. -/
def isLineBreak : Class → Bool
  | carriageReturn | lineFeed | newline => true
  | _ => false

end Class

/-- What the character after a punctuation mark has to be, for the word to go on across the mark. -/
inductive Need
  | letter | hebrew | digit
  deriving DecidableEq, Repr

/-- Whether a character of the given class is what is needed. -/
def Need.meets : Need → Class → Bool
  | .letter, .letter | .letter, .hebrew | .hebrew, .hebrew | .digit, .digit => true
  | _, _ => false

end Mentions.Word
