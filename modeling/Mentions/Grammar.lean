import Mentions.Text.Units

/-!
# The grammar of mentions

A mention is a marker followed by a body: one or more ASCII letters, digits, underscores, full stops
and hyphens, taken maximally, of which the last is a word character, that is no full stop or hyphen.
Zero width characters belong to no body, so that one of them spliced into a mention cuts it short.

`body` finds the longest body at the head of a text, by `takeThrough`, which keeps a text up to its
last character of a kind; `strip` removes the zero width characters, for display.
-/

namespace Mentions

/-! ## Characters -/

/-- Whether a character may stand in a mention's body. -/
def isBodyChar (c : Char) : Bool := c.isAlphanum || c = '.' || c = '-' || c = '_'

/-- Whether a character may end a mention's body. -/
def isWordChar (c : Char) : Bool := c.isAlphanum || c = '_'

/-- The zero width space. -/
def zeroWidthSpace : Char := '\u200b'

/-- The zero width non-joiner. -/
def zeroWidthNonJoiner : Char := '\u200c'

/-- Whether a character is an invisible separator. -/
def isZeroWidth (c : Char) : Bool := c = zeroWidthSpace || c = zeroWidthNonJoiner

/-- The marker that opens a mention unless another one is chosen. -/
def defaultMarker : Char := '@'

/-- The length that the shape of a mention allows unless another one is chosen, its marker
included. -/
def defaultMaxLength : Nat := 50

/-- What separates a mention from text that has grown onto it. -/
def growthSeparator : Text := [zeroWidthSpace, zeroWidthNonJoiner, zeroWidthSpace]

/-- What cuts a mention whose shape alone looks wrong. -/
def shapeSeparator : Text := [zeroWidthSpace]

/-! ## Bodies -/

/-- The text up to and with its last character that satisfies `p`. -/
def takeThrough (p : Char → Bool) : Text → Text
  | [] => []
  | c :: t =>
    match takeThrough p t with
    | [] => if p c then [c] else []
    | d :: r => c :: d :: r

/-- The longest body at the head of a text, empty if there is none. -/
def body (t : Text) : Text := takeThrough isWordChar (t.takeWhile isBodyChar)

/-- The length of the longest body at the head of a text that has at most `limit` characters. Body
characters are ASCII, so it counts characters, UTF-16 units and bytes alike. -/
def bodyLength (t : Text) (limit : Nat) : Nat := (body (t.take limit)).length

/-! ## Display -/

/-- The text without its invisible separators. -/
def strip (t : Text) : Text := t.filter fun c => !isZeroWidth c

/-- Whether a text is displayed as it stands. -/
def isStripped (t : Text) : Bool := t.all fun c => !isZeroWidth c

end Mentions
