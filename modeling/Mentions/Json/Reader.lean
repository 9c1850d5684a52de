import Mentions.Json.Basic

/-!
# Reading JSON

`Json.read` reads one value from a text that holds nothing else. The grammar is the strict one:
blanks are spaces, tabs and line ends, a number has no leading zero, a string no bare control
character, and nothing follows the value. A string is read in two steps: `readCodes` undoes the
escapes and gives code points, halves of surrogate pairs among them, and `joinCodes` puts the halves
together.

The reader recurses on a number of steps, of which each character needs at most two; `Json.read`
supplies them.
-/

namespace Mentions.Json

/-- Whether a character may stand between two tokens. -/
def isGap (c : Char) : Bool := c = ' ' || c = '\t' || c = '\n' || c = '\r'

/-- The text after the gap at its head. -/
def skipGap (t : Text) : Text := t.dropWhile isGap

/-! ## Strings -/

/-- The value of a hexadecimal digit. -/
def hexDigit? (c : Char) : Option Nat :=
  if '0' ≤ c && c ≤ '9' then some (c.toNat - '0'.toNat)
  else if 'a' ≤ c && c ≤ 'f' then some (c.toNat - 'a'.toNat + 10)
  else if 'A' ≤ c && c ≤ 'F' then some (c.toNat - 'A'.toNat + 10)
  else none

/-- The value of four hexadecimal digits. -/
def hexCode? (a b c d : Char) : Option Nat := do
  let a ← hexDigit? a
  let b ← hexDigit? b
  let c ← hexDigit? c
  let d ← hexDigit? d
  some (((a * 16 + b) * 16 + c) * 16 + d)

/-- The code point that a letter after a backslash stands for. -/
def escapeCode? (c : Char) : Option Nat :=
  match c with
  | '"' => some 0x22
  | '\\' => some 0x5C
  | '/' => some 0x2F
  | 'b' => some 0x08
  | 'f' => some 0x0C
  | 'n' => some 0x0A
  | 'r' => some 0x0D
  | 't' => some 0x09
  | _ => none

/-- The code points of a string up to its closing quote, and the text after it. -/
def readCodes : Text → Option (List Nat × Text)
  | [] => none
  | c :: t =>
    if c = '"' then some ([], t)
    else if c = '\\' then
      match t with
      | [] => none
      | e :: t =>
        if e = 'u' then
          match t with
          | a :: b :: c :: d :: t => do
            let n ← hexCode? a b c d
            let (ns, rest) ← readCodes t
            some (n :: ns, rest)
          | _ => none
        else do
          let n ← escapeCode? e
          let (ns, rest) ← readCodes t
          some (n :: ns, rest)
    else if c.toNat < 0x20 then none
    else do
      let (ns, rest) ← readCodes t
      some (c.toNat :: ns, rest)

/-- Whether a code point is the first half of a surrogate pair. -/
def isHigh (n : Nat) : Bool := 0xD800 ≤ n && n < 0xDC00

/-- Whether a code point is the second half of a surrogate pair. -/
def isLow (n : Nat) : Bool := 0xDC00 ≤ n && n < 0xE000

/-- The text of a list of code points; `none` if half of a pair stands alone. -/
def joinCodes : List Nat → Option Text
  | [] => some []
  | n :: ns =>
    if isHigh n then
      match ns with
      | [] => none
      | m :: ns =>
        if isLow m then
          (joinCodes ns).map (Char.ofNat (0x10000 + (n - 0xD800) * 0x400 + (m - 0xDC00)) :: ·)
        else none
    else if isLow n then none
    else (joinCodes ns).map (Char.ofNat n :: ·)

/-- A string after its opening quote, and the text after it. -/
def readString (t : Text) : Option (Option Text × Text) := do
  let (ns, rest) ← readCodes t
  some (joinCodes ns, rest)

/-! ## Numbers -/

/-- One digit or more at the head of a text, and the text after them. -/
def readDigits (t : Text) : Option (Text × Text) :=
  match t.takeWhile Char.isDigit with
  | [] => none
  | ds => some (ds, t.dropWhile Char.isDigit)

/-- The fraction of a number, if there is one. -/
def readFraction (t : Text) : Option (Text × Text) :=
  match t with
  | '.' :: t => readDigits t
  | t => some ([], t)

/-- The exponent of a number, if there is one. -/
def readExponent (t : Text) : Option (Option (Bool × Text) × Text) :=
  match t with
  | [] => some (none, [])
  | c :: r =>
    if c = 'e' || c = 'E' then
      match r with
      | '-' :: r => (readDigits r).map fun (ds, r) => (some (true, ds), r)
      | '+' :: r => (readDigits r).map fun (ds, r) => (some (false, ds), r)
      | r => (readDigits r).map fun (ds, r) => (some (false, ds), r)
    else some (none, t)

/-- A number without its sign, and the text after it. -/
def readUnsigned (negative : Bool) (t : Text) : Option (Numeral × Text) := do
  let (whole, t) ← readDigits t
  if whole.head? = some '0' && whole.length ≠ 1 then none
  else
    let (fraction, t) ← readFraction t
    let (exponent?, t) ← readExponent t
    some (⟨negative, whole, fraction, exponent?⟩, t)

/-- A number, and the text after it. -/
def readNumber (t : Text) : Option (Numeral × Text) :=
  match t with
  | '-' :: t => readUnsigned true t
  | t => readUnsigned false t

/-! ## Values -/

/-- The text after a given word at its head. -/
def dropWord? : Text → Text → Option Text
  | [], t => some t
  | _ :: _, [] => none
  | w :: ws, c :: t => if w = c then dropWord? ws t else none

/-- The value that a word stands for, and the text after it. -/
def readWord (word : String) (j : Json) (t : Text) : Option (Json × Text) :=
  (dropWord? word.toList t).map (j, ·)

mutual

/-- A value, and the text after it. -/
def readValue : Nat → Text → Option (Json × Text)
  | 0, _ => none
  | steps + 1, t =>
    match skipGap t with
    | [] => none
    | c :: r =>
      if c = '"' then (readString r).map fun (s, r) => (.string s, r)
      else if c = '[' then
        match skipGap r with
        | ']' :: r => some (.array [], r)
        | r => (readItems steps r).map fun (js, r) => (.array js, r)
      else if c = '\x7b' then
        match skipGap r with
        | '\x7d' :: r => some (.object [], r)
        | r => (readMembers steps r).map fun (ms, r) => (.object ms, r)
      else if c = 'n' then readWord "ull" .null r
      else if c = 't' then readWord "rue" (.bool true) r
      else if c = 'f' then readWord "alse" (.bool false) r
      else (readNumber (c :: r)).map fun (n, r) => (.number n, r)

/-- The items of an array up to its closing bracket, one at least, and the text after it. -/
def readItems : Nat → Text → Option (List Json × Text)
  | 0, _ => none
  | steps + 1, t => do
    let (j, t) ← readValue steps t
    match skipGap t with
    | ',' :: t => do
      let (js, t) ← readItems steps t
      some (j :: js, t)
    | ']' :: t => some ([j], t)
    | _ => none

/-- The members of an object up to its closing brace, one at least, and the text after it. -/
def readMembers : Nat → Text → Option (List (Option Text × Json) × Text)
  | 0, _ => none
  | steps + 1, t =>
    match skipGap t with
    | '"' :: t => do
      let (name, t) ← readString t
      match skipGap t with
      | ':' :: t => do
        let (j, t) ← readValue steps t
        match skipGap t with
        | ',' :: t => do
          let (ms, t) ← readMembers steps t
          some ((name, j) :: ms, t)
        | '\x7d' :: t => some ([(name, j)], t)
        | _ => none
      | _ => none
    | _ => none

end

/-- The value that a text spells, if it spells one and nothing else. -/
def read (t : Text) : Option Json :=
  match readValue (2 * t.length + 2) t with
  | some (j, rest) => if (skipGap rest).isEmpty then some j else none
  | none => none

end Mentions.Json
