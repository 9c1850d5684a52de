import Mentions.Scan

/-!
# Reading mentions one at a time

A `Reader` stands at some place of a buffer and finds the next mention on demand. It looks for one
marker at a time and never lists the mentions ahead of it; `Reader.remaining` says which those are.
A reader can be rewound, and a copy of it can be kept and taken up again: `Reader.run` answers a
list of such requests.
-/

namespace Mentions

/-- The first mention of a text whose first character stands at offset `pos`, with the text after
it. -/
def firstFrom? (marker : Char) : (pos : Nat) → Text → Option (Span × Text)
  | _, [] => none
  | pos, c :: t =>
    let next := pos + Text.unitsOf c
    if c = marker then
      match body t with
      | [] => firstFrom? marker next t
      | b => some (⟨pos, next + Text.units b, c :: b⟩, t.drop b.length)
    else firstFrom? marker next t

/-- A place in a buffer from which mentions are read. -/
structure Reader where
  marker : Char
  buffer : Text
  /-- The offset of the place. -/
  pos : Nat
  /-- The text from the place on. -/
  rest : Text
  deriving DecidableEq, Repr

namespace Reader

/-- A reader at the start of a buffer. -/
def ofBuffer (marker : Char) (buffer : Text) : Reader := ⟨marker, buffer, 0, buffer⟩

/-- The reader at the start of its buffer. -/
def rewind (r : Reader) : Reader := ofBuffer r.marker r.buffer

/-- The next mention, if there is one, and the reader after it. -/
def next (r : Reader) : Option Span × Reader :=
  match firstFrom? r.marker r.pos r.rest with
  | some (s, rest) => (some s, { r with pos := s.stop, rest })
  | none => (none, { r with pos := r.pos + Text.units r.rest, rest := [] })

/-- The mentions ahead of the reader. -/
def remaining (r : Reader) : List Span := scanFrom r.marker r.pos 0 r.rest

/-- The reader at the end of its buffer. -/
def finish (r : Reader) : Reader := { r with pos := r.pos + Text.units r.rest, rest := [] }

/-! ## Requests -/

/-- What may be asked of a reader. -/
inductive Request
  | next
  | rewind
  /-- Keep a copy of the reader. -/
  | keep
  /-- Go on with the copy that was kept last. -/
  | takeUp
  /-- Count the mentions ahead, without moving. -/
  | count
  /-- Read all mentions ahead. -/
  | readAll
  deriving DecidableEq, Repr

/-- What a reader answers. -/
inductive Reply
  | mention (s : Option Span)
  | done
  | count (n : Nat)
  | mentions (spans : List Span)
  deriving DecidableEq, Repr

/-- Answers one request, given the reader and the copy that was kept. -/
def answer (r kept : Reader) : Request → Reply × Reader × Reader
  | .next =>
    let (s, r') := r.next
    (.mention s, r', kept)
  | .rewind => (.done, r.rewind, kept)
  | .keep => (.done, r, r)
  | .takeUp => (.done, kept, kept)
  | .count => (.count r.remaining.length, r, kept)
  | .readAll => (.mentions r.remaining, r.finish, kept)

/-- Answers requests one after the other. -/
def run (r kept : Reader) : List Request → List Reply
  | [] => []
  | q :: qs =>
    let (a, r', kept') := r.answer kept q
    a :: run r' kept' qs

end Reader

end Mentions
