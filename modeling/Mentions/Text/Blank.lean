import Mentions.Text.Ranges
import Mentions.Text.Units

/-!
# Blank characters

A character is blank if it has the Unicode property `White_Space`. The zero width characters do not
have it, the line and paragraph separators and the no-break spaces do.
-/

namespace Mentions.Text

/-- The blank code points, in increasing order. -/
def blanks : Ranges where
  list :=
    [(0x0009, 0x000D), (0x0020, 0x0020), (0x0085, 0x0085), (0x00A0, 0x00A0), (0x1680, 0x1680),
     (0x2000, 0x200A), (0x2028, 0x2029), (0x202F, 0x202F), (0x205F, 0x205F), (0x3000, 0x3000)]

/-- Whether a character is white space. -/
def isBlankChar (c : Char) : Bool := blanks.contains c.toNat

/-- Whether a text holds nothing but white space. -/
def isBlank (t : Text) : Bool := t.all isBlankChar

end Mentions.Text
