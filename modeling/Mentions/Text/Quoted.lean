import Mentions.Text.Combining
import Mentions.Text.Units
import Mentions.Text.Unprintable

/-!
# Quoted characters

How a message shows a single character: in single quotes, with the usual backslash escapes, and by
its code point in hexadecimal where it would not be seen or would be drawn over its neighbour.
-/

namespace Mentions.Text

/-- The digits of a number in lower case hexadecimal, without padding. -/
def hex (n : Nat) : Text := Nat.toDigits 16 n

/-- A character as it stands between single quotes. -/
def escapeChar (c : Char) : Text :=
  match c with
  | '\x00' => ['\\', '0']
  | '\t' => ['\\', 't']
  | '\n' => ['\\', 'n']
  | '\r' => ['\\', 'r']
  | '\'' => ['\\', '\'']
  | '\\' => ['\\', '\\']
  | c =>
    if isCombining c || isUnprintable c then
      ['\\', 'u', '\x7b'] ++ hex c.toNat ++ ['\x7d']
    else [c]

/-- A character in single quotes. -/
def quoteChar (c : Char) : Text := '\'' :: escapeChar c ++ ['\'']

end Mentions.Text
