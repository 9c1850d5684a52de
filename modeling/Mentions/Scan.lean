import Mentions.Span

/-!
# Scanning a buffer for mentions

`scan` lists the mentions of a buffer from left to right: at each marker that a body follows it
reports a span and goes on after it, and it passes over all other characters one by one.
`scanFrom` is the scan of the part of a buffer from some offset on, with a number of characters that
are to be passed over because they belong to a mention that has been reported.
-/

namespace Mentions

/-- The mentions of a text whose first character stands at offset `pos`. The first `skip` characters
are passed over. -/
def scanFrom (marker : Char) : (pos skip : Nat) → Text → List Span
  | _, _, [] => []
  | pos, skip + 1, c :: t => scanFrom marker (pos + Text.unitsOf c) skip t
  | pos, 0, c :: t =>
    let next := pos + Text.unitsOf c
    if c = marker then
      match body t with
      | [] => scanFrom marker next 0 t
      | b => ⟨pos, next + Text.units b, c :: b⟩ :: scanFrom marker next b.length t
    else scanFrom marker next 0 t

/-- The mentions of a buffer, from left to right. -/
def scan (marker : Char) (buffer : Text) : List Span := scanFrom marker 0 0 buffer

end Mentions
