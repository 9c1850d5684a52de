import Mentions.Text.Units
import Mentions.Word.Class

/-!
# The last word piece of a text

Reading to the left, `Backward.extent` says how many characters precede the last one within its
piece. The text is given reversed, so that both directions work on lists. The machine differs from
the one that reads to the right, because a transparent character is met before the character that it
belongs to: the state `transparent` remembers what to go on with, and where the piece ends if it
turns out that the transparent characters belong to another piece.
-/

namespace Mentions.Word.Backward

/-- What may join the piece that has been read so far. -/
inductive State
  | letter | hebrew | digit | kana | connector | space | pictograph
  /-- Half of a flag, of which it is not yet known whether it is the left half. -/
  | someFlag
  /-- A whole flag. -/
  | wholeFlag
  /-- Transparent characters only, which belong to whatever precedes them. -/
  | anything
  /-- An apostrophe, which a Hebrew letter may precede. -/
  | apostrophe (length : Nat)
  /-- Punctuation before a word or number, taken only if the need is met. -/
  | need (what : Need) (length : Nat)
  /-- Transparent characters in the middle of a piece that is in the state `resumed`. -/
  | transparent (resumed : State) (length : Nat)
  deriving DecidableEq, Repr

namespace State

/-- The state after a character that may be the last visible one of a piece, or `none` if it is a
piece of its own. The piece has `n` further characters up to and with this one. -/
def start (n : Nat) (c : Char) : Option State :=
  match Class.of c with
  | .letter => some letter
  | .hebrew => some hebrew
  | .digit => some digit
  | .kana => some kana
  | .connector => some connector
  | .space => some space
  | .flag => some someFlag
  | .apostrophe => some (apostrophe n)
  | .mark | .control | .joiner => some anything
  | _ => if isPictograph c then some pictograph else none

/-- The number of regional indicators at the head of a text, transparent characters aside. -/
def countFlags : Text → Nat
  | [] => 0
  | c :: t =>
    match Class.of c with
    | .flag => countFlags t + 1
    | .mark | .control | .joiner => countFlags t
    | _ => 0

/-- The state after a transparent character, where `n` further characters have been read. -/
def passTransparent (n : Nat) : State → Class → State
  | anything, _ => anything
  | apostrophe l, _ => apostrophe l
  | need w l, _ => need w l
  | transparent s l, _ => transparent s l
  | pictograph, .joiner => anything
  | s, _ => transparent s n

/-- The state to go on with, and the piece's number of further characters if it ends here, where
`n` have been read. -/
def resume (n : Nat) : State → State × Nat
  | transparent s length => (s, length)
  | s => (s, n)

/-- What one more visible character makes of the piece. -/
inductive Step
  /-- It joins the piece, which stays open. -/
  | take (s : State)
  /-- It joins the piece and closes it. -/
  | last
  /-- The piece ends with the given number of further characters. -/
  | stop (length : Nat)

/-- What the visible character `c`, before which the text `t` stands, makes of a piece in a state
that is not `transparent`. The piece has `length` further characters without `c`, and `n` with all
that lies between; `fresh` says whether `c` is right beside the last visible one. -/
def next (length n : Nat) (fresh : Bool) (c : Char) (t : Text) (s : State) : Step :=
  let k := Class.of c
  match s with
  | anything =>
    if k.isLineBreak then .stop length
    else
      match start (n + 1) c with
      | some s' => .take s'
      | none => .last
  | letter =>
    match k with
    | .letter => .take letter
    | .hebrew => .take hebrew
    | .digit => .take digit
    | .connector => .take connector
    | .midLetter | .midEither | .apostrophe => .take (need .letter length)
    | _ => .stop length
  | hebrew =>
    match k with
    | .letter => .take letter
    | .hebrew => .take hebrew
    | .digit => .take digit
    | .connector => .take connector
    | .quote => .take (need .hebrew length)
    | .midLetter | .midEither | .apostrophe => .take (need .letter length)
    | _ => .stop length
  | digit =>
    match k with
    | .digit => .take digit
    | .letter => .take letter
    | .hebrew => .take hebrew
    | .connector => .take connector
    | .midNumber | .midEither | .apostrophe => .take (need .digit length)
    | _ => .stop length
  | kana =>
    match k with
    | .kana => .take kana
    | .connector => .take connector
    | _ => .stop length
  | connector =>
    match k with
    | .connector => .take connector
    | .letter => .take letter
    | .hebrew => .take hebrew
    | .digit => .take digit
    | .kana => .take kana
    | _ => .stop length
  | space => if fresh && k = .space then .take space else .stop length
  | pictograph => .stop length
  | someFlag =>
    if k = .flag && countFlags (c :: t) % 2 = 1 then .take wholeFlag else .stop length
  | wholeFlag => .stop length
  | apostrophe l => if k = .hebrew then .take hebrew else .stop l
  | need what l =>
    if what.meets k then
      match k with
      | .hebrew => .take hebrew
      | .digit => .take digit
      | _ => .take letter
    else .stop l
  | transparent _ l => .stop l

/-- How many further characters the piece has if the text ends here, where `n` have been read. -/
def settle (n : Nat) : State → Nat
  | apostrophe length | need _ length | transparent _ length => length
  | _ => n

end State

/-- Runs the machine over the reversed text before the piece's last character, of which `n`
characters have been read. -/
def run : State → (n : Nat) → Text → Nat
  | s, n, [] => s.settle n
  | s, n, c :: t =>
    let k := Class.of c
    if k.isTransparent then run (s.passTransparent n k) (n + 1) t
    else
      let (s', length) := s.resume n
      match s'.next length n (length = n) c t with
      | .take s'' => run s'' (n + 1) t
      | .last => n + 1
      | .stop l => l

/-- How many characters precede the last character `c` of a text within its piece, where `t` is the
reversed text before `c`. -/
def extent (c : Char) (t : Text) : Nat :=
  match Class.of c with
  | .lineFeed => if (t.head?.map Class.of) = some .carriageReturn then 1 else 0
  | .carriageReturn | .newline => 0
  | _ =>
    match State.start 0 c with
    | some s => run s 0 t
    | none => 0

end Mentions.Word.Backward
