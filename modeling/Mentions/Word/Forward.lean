import Mentions.Text.Units
import Mentions.Word.Class

/-!
# The first word piece of a text

Reading to the right, `Forward.extent` says how many characters follow the first one within its
piece. It runs a small machine, whose state says what may still join the piece. Punctuation inside a
word or number is taken on approval: the state `need` remembers where the piece ends if what follows
does not meet the need.
-/

namespace Mentions.Word.Forward

/-- What may join the piece that has been read so far. -/
inductive State
  | letter | hebrew | digit | kana | connector | space
  /-- One half of a flag, which takes a second half. -/
  | halfFlag
  /-- A Hebrew letter and an apostrophe, which belong together whatever follows. -/
  | hebrewApostrophe
  /-- Punctuation after a word or number, taken only if the need is met; the piece otherwise has
  `length` further characters. -/
  | need (what : Need) (length : Nat)
  /-- Nothing but transparent characters. -/
  | closed
  deriving DecidableEq, Repr

namespace State

/-- The state after a first character of a class that is no line break. -/
def start : Class → State
  | .letter => letter
  | .hebrew => hebrew
  | .digit => digit
  | .kana => kana
  | .connector => connector
  | .space => space
  | .flag => halfFlag
  | _ => closed

/-- The state after a transparent character: it ends a run of spaces and leaves all else open. -/
def passTransparent : State → State
  | space => closed
  | s => s

/-- The state after one more character, or `none` if the character opens another piece; `n` further
characters have been read before it. -/
def next (n : Nat) : State → Class → Option State
  | letter, k =>
    match k with
    | .letter => some letter
    | .hebrew => some hebrew
    | .digit => some digit
    | .connector => some connector
    | .midLetter | .midEither | .apostrophe => some (need .letter n)
    | _ => none
  | hebrew, k =>
    match k with
    | .letter => some letter
    | .hebrew => some hebrew
    | .digit => some digit
    | .connector => some connector
    | .quote => some (need .hebrew n)
    | .apostrophe => some hebrewApostrophe
    | .midLetter | .midEither => some (need .letter n)
    | _ => none
  | digit, k =>
    match k with
    | .digit => some digit
    | .letter => some letter
    | .hebrew => some hebrew
    | .connector => some connector
    | .midNumber | .midEither | .apostrophe => some (need .digit n)
    | _ => none
  | kana, k =>
    match k with
    | .kana => some kana
    | .connector => some connector
    | _ => none
  | connector, k =>
    match k with
    | .connector => some connector
    | .letter => some letter
    | .hebrew => some hebrew
    | .digit => some digit
    | .kana => some kana
    | _ => none
  | space, k => if k = .space then some space else none
  | halfFlag, k => if k = .flag then some closed else none
  | hebrewApostrophe, k =>
    match k with
    | .letter => some letter
    | .hebrew => some hebrew
    | _ => none
  | need what _, k => if what.meets k then some (start k) else none
  | closed, _ => none

/-- How many further characters the piece has if it ends here, where `n` have been read. -/
def settle (n : Nat) : State → Nat
  | need _ length => length
  | _ => n

end State

/-- Runs the machine over the text after the piece's first character. `joined` says whether the
last character read was a joiner, which ties a pictograph to any piece; `n` further characters have
been read. -/
def run : State → (joined : Bool) → (n : Nat) → Text → Nat
  | s, _, n, [] => s.settle n
  | s, joined, n, c :: t =>
    let k := Class.of c
    if k.isTransparent then run s.passTransparent (k = .joiner) (n + 1) t
    else if joined && isPictograph c then run .closed false (n + 1) t
    else
      match s.next n k with
      | some s' => run s' false (n + 1) t
      | none => s.settle n

/-- How many characters follow the first character of a text within its piece. -/
def extent (c : Char) (t : Text) : Nat :=
  match Class.of c with
  | .carriageReturn => if (t.head?.map Class.of) = some .lineFeed then 1 else 0
  | .lineFeed | .newline => 0
  | k => run (.start k) (k = .joiner) 0 t

end Mentions.Word.Forward
