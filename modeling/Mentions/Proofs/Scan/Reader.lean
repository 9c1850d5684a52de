import Mentions.Proofs.Scan.Rules
import Mentions.Scan.Reader

/-!
# Reading mentions is indexing them

A reader looks for one mention at a time and keeps nothing but its place. What is ahead of it are
the mentions that the scan lists from this place on, and they come one after the other: the next
mention is the first of them, and behind it the others are ahead (`Reader.next_fst`,
`Reader.remaining_next`). This is read off the rules of the scan, of which the search for the next
mention takes one after the other (`Scans.firstFrom?_eq`).

So a reader answers like an index into the list of all mentions of its buffer (`Index`), and so does
the copy that was kept. `Reader.StandsAt` relates the two: the mentions ahead of the reader are
those from the index on. Each request keeps this relation (`Reader.StandsAt.answer`), hence each
list of requests does (`Reader.StandsAt.run_after`).
-/

namespace Mentions

open Text Reader

variable {m : Char} {pos i k : Nat} {b buffer r t : Text} {s : Span} {spans : List Span}
  {reader kept : Reader}

/-! ## An index into a list -/

namespace Index

/-- What an index into a list answers to a request, given the index that was kept, and what both
are afterwards. -/
def answer (spans : List Span) (i kept : Nat) : Request → Reply × Nat × Nat
  | .next => (.mention spans[i]?, if i < spans.length then i + 1 else i, kept)
  | .rewind => (.done, 0, kept)
  | .keep => (.done, i, i)
  | .takeUp => (.done, kept, kept)
  | .count => (.count (spans.length - i), i, kept)
  | .readAll => (.mentions (spans.drop i), spans.length, kept)

/-- Answers requests one after the other. -/
def run (spans : List Span) (i kept : Nat) : List Request → List Reply
  | [] => []
  | q :: qs =>
    let (a, i', kept') := answer spans i kept q
    a :: run spans i' kept' qs

/-- The index and the one that was kept after some requests. -/
def after (spans : List Span) (i kept : Nat) : List Request → Nat × Nat
  | [] => (i, kept)
  | q :: qs =>
    let (_, i', kept') := answer spans i kept q
    after spans i' kept' qs

/-- What is ahead of the next index. -/
theorem tail_drop (spans : List Span) (i : Nat) :
    (spans.drop i).tail = spans.drop (if i < spans.length then i + 1 else i) := by
  rw [List.tail_drop]
  split
  · rfl
  · next hi => rw [List.drop_eq_nil_of_le (by omega), List.drop_eq_nil_of_le (by omega)]

end Index

/-! ## The next mention -/

/-- The search passes over a character that starts no mention. -/
theorem firstFrom?_cons_of_released {c : Char} (hc : c = m → Released t) :
    firstFrom? m pos (c :: t) = firstFrom? m (pos + unitsOf c) t := by
  by_cases h : c = m
  · simp [firstFrom?, h, body_eq_nil_iff.2 (hc h)]
  · simp [firstFrom?, h]

/-- The search ends at a mention. -/
theorem firstFrom?_cons_append (hb : IsBody b) (hr : Released r) :
    firstFrom? m pos (m :: (b ++ r)) = some (⟨pos, pos + unitsOf m + units b, m :: b⟩, r) := by
  obtain ⟨d, b', rfl⟩ := List.exists_cons_of_ne_nil hb.ne_nil
  have hbody := body_append hb hr
  simp only [firstFrom?, if_pos]
  rw [hbody]
  simp only [List.drop_left]

/-- The search finds the first mention that is listed, and the others are listed behind it. -/
theorem Scans.firstFrom?_eq (h : Scans m pos t spans) :
    spans = [] ∧ firstFrom? m pos t = none ∨
      ∃ s rest r, spans = s :: rest ∧ firstFrom? m pos t = some (s, r) ∧ Scans m s.stop r rest := by
  induction h with
  | done => exact .inl ⟨rfl, rfl⟩
  | pass hc _ ih => rwa [firstFrom?_cons_of_released hc]
  | mention hb hr ht _ => exact .inr ⟨_, _, _, rfl, firstFrom?_cons_append hb hr, ht⟩

namespace Reader

/-- The next mention is the first of those ahead. -/
theorem next_fst (reader : Reader) : reader.next.1 = reader.remaining.head? := by
  rcases (scans_scanFrom reader.marker reader.pos reader.rest).firstFrom?_eq with
    ⟨hnil, hnone⟩ | ⟨s, rest, r, hcons, hsome, -⟩
  · rw [remaining, hnil, next, hnone]
    rfl
  · rw [remaining, hcons, next, hsome]
    rfl

/-- Behind the next mention the others are ahead. Nothing is if there is no next mention. -/
theorem remaining_next (reader : Reader) : reader.next.2.remaining = reader.remaining.tail := by
  rcases (scans_scanFrom reader.marker reader.pos reader.rest).firstFrom?_eq with
    ⟨hnil, hnone⟩ | ⟨s, rest, r, hcons, hsome, hrest⟩
  · rw [remaining, remaining, hnil, next, hnone]
    rfl
  · rw [remaining, remaining, hcons, next, hsome]
    exact scans_iff.1 hrest

@[simp] theorem next_marker (reader : Reader) : reader.next.2.marker = reader.marker := by
  rw [next]
  split <;> rfl

@[simp] theorem next_buffer (reader : Reader) : reader.next.2.buffer = reader.buffer := by
  rw [next]
  split <;> rfl

/-- Asked again and again, the reader gives these mentions and then no more. -/
inductive Yields : Reader → List Span → Prop
  | done {reader : Reader} (h : reader.next.1 = none) : Yields reader []
  | next {reader : Reader} {s : Span} {spans : List Span} (h : reader.next.1 = some s)
      (hrest : Yields reader.next.2 spans) : Yields reader (s :: spans)

/-- A reader gives the mentions ahead of it. -/
theorem yields_remaining (reader : Reader) : reader.Yields reader.remaining := by
  generalize hspans : reader.remaining = spans
  induction spans generalizing reader with
  | nil => exact .done (by rw [next_fst, hspans, List.head?_nil])
  | cons s spans ih =>
    refine .next (by rw [next_fst, hspans, List.head?_cons]) (ih _ ?_)
    rw [remaining_next, hspans, List.tail_cons]

/-! ## Readers and indices -/

/-- The reader and the copy that was kept after some requests. -/
def after (reader kept : Reader) : List Request → Reader × Reader
  | [] => (reader, kept)
  | q :: qs =>
    let (_, reader', kept') := reader.answer kept q
    after reader' kept' qs

/-- The mentions ahead of a reader of the buffer are those from an index on. -/
structure StandsAt (m : Char) (buffer : Text) (i : Nat) (reader : Reader) : Prop where
  marker_eq : reader.marker = m
  buffer_eq : reader.buffer = buffer
  remaining_eq : reader.remaining = (scan m buffer).drop i

theorem standsAt_ofBuffer (m : Char) (buffer : Text) : StandsAt m buffer 0 (ofBuffer m buffer) :=
  ⟨rfl, rfl, rfl⟩

/-- The next mention is the one at the index, which goes on to the one behind it if there is any. -/
theorem StandsAt.next (h : StandsAt m buffer i reader) :
    reader.next.1 = (scan m buffer)[i]? ∧
      StandsAt m buffer (if i < (scan m buffer).length then i + 1 else i) reader.next.2 := by
  refine ⟨by rw [next_fst, h.remaining_eq, List.head?_drop], ?_, ?_, ?_⟩
  · rw [next_marker, h.marker_eq]
  · rw [next_buffer, h.buffer_eq]
  · rw [remaining_next, h.remaining_eq, Index.tail_drop]

theorem StandsAt.rewind (h : StandsAt m buffer i reader) : StandsAt m buffer 0 reader.rewind := by
  rw [Reader.rewind, h.marker_eq, h.buffer_eq]
  exact standsAt_ofBuffer m buffer

theorem StandsAt.finish (h : StandsAt m buffer i reader) :
    StandsAt m buffer (scan m buffer).length reader.finish :=
  ⟨h.marker_eq, h.buffer_eq, List.drop_length.symm⟩

/-- A request is answered as by the indices, and the reader and the copy that was kept stand at them
again. -/
theorem StandsAt.answer (h : StandsAt m buffer i reader) (hkept : StandsAt m buffer k kept)
    (q : Request) :
    (reader.answer kept q).1 = (Index.answer (scan m buffer) i k q).1 ∧
      StandsAt m buffer (Index.answer (scan m buffer) i k q).2.1 (reader.answer kept q).2.1 ∧
      StandsAt m buffer (Index.answer (scan m buffer) i k q).2.2 (reader.answer kept q).2.2 := by
  cases q with
  | next =>
    obtain ⟨hspan, hnext⟩ := h.next
    exact ⟨congrArg Reply.mention hspan, hnext, hkept⟩
  | rewind => exact ⟨rfl, h.rewind, hkept⟩
  | keep => exact ⟨rfl, h, h⟩
  | takeUp => exact ⟨rfl, hkept, hkept⟩
  | count =>
    refine ⟨congrArg Reply.count ?_, h, hkept⟩
    rw [h.remaining_eq, List.length_drop]
  | readAll => exact ⟨congrArg Reply.mentions h.remaining_eq, h.finish, hkept⟩

/-- Requests are answered as by the indices, and lead to where these are then. -/
theorem StandsAt.run_after (h : StandsAt m buffer i reader) (hkept : StandsAt m buffer k kept)
    (qs : List Request) :
    reader.run kept qs = Index.run (scan m buffer) i k qs ∧
      StandsAt m buffer (Index.after (scan m buffer) i k qs).1 (reader.after kept qs).1 ∧
      StandsAt m buffer (Index.after (scan m buffer) i k qs).2 (reader.after kept qs).2 := by
  induction qs generalizing reader kept i k with
  | nil => exact ⟨rfl, h, hkept⟩
  | cons q qs ih =>
    obtain ⟨hreply, hnext, hnextKept⟩ := h.answer hkept q
    obtain ⟨hrun, hafter, hafterKept⟩ := ih hnext hnextKept
    exact ⟨congrArg₂ List.cons hreply hrun, hafter, hafterKept⟩

end Reader

end Mentions
