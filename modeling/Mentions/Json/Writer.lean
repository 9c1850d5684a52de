import Mentions.Json.Basic

/-!
# Writing JSON

`Json.write` writes a value without gaps. In strings the quote, the backslash and the control
characters are escaped and all else stands for itself. Reading gives the value back.
-/

namespace Mentions.Json

/-- A digit of a number below sixteen, in lower case hexadecimal. -/
def hexChar (n : Nat) : Char := Nat.digitChar n

/-- A character as it stands in a string. -/
def escape (c : Char) : Text :=
  if c = '"' then ['\\', '"']
  else if c = '\\' then ['\\', '\\']
  else if c = '\x08' then ['\\', 'b']
  else if c = '\x0c' then ['\\', 'f']
  else if c = '\n' then ['\\', 'n']
  else if c = '\r' then ['\\', 'r']
  else if c = '\t' then ['\\', 't']
  else if c.toNat < 0x20 then
    ['\\', 'u', '0', '0', hexChar (c.toNat / 16), hexChar (c.toNat % 16)]
  else [c]

/-- A string in quotes. One that is no text is written as half of a pair, which is none either. -/
def writeString : Option Text → Text
  | some t => '"' :: t.flatMap escape ++ ['"']
  | none => "\"\\ud800\"".toList

/-- A number as it is spelled. -/
def writeNumeral (n : Numeral) : Text :=
  (if n.negative then ['-'] else []) ++ n.whole ++
    (if n.fraction.isEmpty then [] else '.' :: n.fraction) ++
    match n.exponent? with
    | none => []
    | some (negative, digits) => 'e' :: (if negative then ['-'] else []) ++ digits

mutual

/-- A value as text. -/
def write : Json → Text
  | .null => "null".toList
  | .bool true => "true".toList
  | .bool false => "false".toList
  | .number n => writeNumeral n
  | .string s => writeString s
  | .array [] => ['[', ']']
  | .array (j :: js) => '[' :: write j ++ writeItems js
  | .object [] => ['\x7b', '\x7d']
  | .object ((name, j) :: ms) => '\x7b' :: writeString name ++ ':' :: write j ++ writeMembers ms

/-- The items of an array after the first, and its closing bracket. -/
def writeItems : List Json → Text
  | [] => [']']
  | j :: js => ',' :: write j ++ writeItems js

/-- The members of an object after the first, and its closing brace. -/
def writeMembers : List (Option Text × Json) → Text
  | [] => ['\x7d']
  | (name, j) :: ms => ',' :: writeString name ++ ':' :: write j ++ writeMembers ms

end

end Mentions.Json
