import Mentions.Proofs.Checked.Scan
import Mentions.Proofs.Scan.Reader

/-!
# Reading mentions, checked

In memory a reader is a place of the buffer, in bytes and in units, from which the turns of the scan
are taken one at a time. The two offsets have to stay together: the text is cut at the one, and the
mentions are reported at the other. They do so only as long as something is left to be read. Behind
the last mention the offset in bytes goes to the end of the buffer, and the one in units stays
behind; a copy of such a place can be kept and taken up again.

`Ahead` says which mentions are ahead of a place, and asks for the offset in units only if something
is left. A search for the next mention keeps it, whatever it passes over (`next_eq`), so each
request is answered as by an index into the list of all mentions (`answer_eq`), and so is every list
of requests, with each cut, each byte and each sum checked (`run_eq`).

Main statement: `reading_is_indexing`.
-/

namespace Mentions.Checked

open Text Reader

variable {m : Char} {buffer l t : Text} {p kept : Place} {i k n u : Nat} {spans : List Span}

/-! ## The iterator -/

/-- The next mention from a place on, and the place behind it, in so many turns at most. -/
def next (m : Char) (buffer : Text) : (turns : Nat) → Place → Checked (Option Span × Place)
  | 0, _ => throw .endless
  | n + 1, p => do
    match ← turn m buffer p with
    | .done => return (none, { p with byte := bytes buffer })
    | .pass p => next m buffer n p
    | .found s p => return (some s, p)

/-- The mentions from a place on, so many less one at most, and the place behind them. -/
def readAll (m : Char) (buffer : Text) : (asked : Nat) → Place → Checked (List Span × Place)
  | 0, _ => throw .endless
  | n + 1, p => do
    match ← next m buffer (buffer.length + 1) p with
    | (none, p) => return ([], p)
    | (some s, p) =>
      let (spans, p) ← readAll m buffer n p
      return (s :: spans, p)

/-- Answers one request, given the place and the copy that was kept. -/
def answer (m : Char) (buffer : Text) (p kept : Place) :
    Request → Checked (Reply × Place × Place)
  | .next => do
    let (s, p) ← next m buffer (buffer.length + 1) p
    return (.mention s, p, kept)
  | .rewind => return (.done, ⟨0, 0⟩, kept)
  | .keep => return (.done, p, p)
  | .takeUp => return (.done, kept, kept)
  | .count => do
    let (spans, _) ← readAll m buffer (buffer.length + 1) p
    return (.count spans.length, p, kept)
  | .readAll => do
    let (spans, p) ← readAll m buffer (buffer.length + 1) p
    return (.mentions spans, p, kept)

/-- Answers requests one after the other. -/
def run (m : Char) (buffer : Text) (p kept : Place) : List Request → Checked (List Reply)
  | [] => return []
  | q :: qs => do
    let (a, p, kept) ← answer m buffer p kept q
    return a :: (← run m buffer p kept qs)

/-! ## What is ahead of a place -/

/-- The place is behind a left part of the buffer in bytes, and in units as well unless nothing is
left. The mentions ahead of it are those of the rest. -/
def Ahead (m : Char) (buffer : Text) (p : Place) (spans : List Span) : Prop :=
  ∃ l t, buffer = l ++ t ∧ p.byte = bytes l ∧ (t ≠ [] → p.unit = units l) ∧
    Mentions.scanFrom m (units l) 0 t = spans

theorem ahead_start (m : Char) (buffer : Text) :
    Ahead m buffer ⟨0, 0⟩ (Mentions.scan m buffer) :=
  ⟨[], buffer, rfl, rfl, fun _ => rfl, rfl⟩

/-- No more mentions are ahead than the buffer has characters. -/
theorem Ahead.length_le (h : Ahead m buffer p spans) : spans.length ≤ buffer.length := by
  obtain ⟨l, t, rfl, -, -, rfl⟩ := h
  rw [List.length_append]
  exact Nat.le_trans (scans_scanFrom m (units l) t).length_le (Nat.le_add_left _ _)

/-- A search finds the first mention of the rest and stops behind it. -/
theorem next_behind (h : Fits (l ++ t)) (hn : t.length < n) (hu : t ≠ [] → u = units l) :
    ∃ p, next m (l ++ t) n ⟨bytes l, u⟩ =
        pure ((Mentions.scanFrom m (units l) 0 t).head?, p) ∧
      Ahead m (l ++ t) p (Mentions.scanFrom m (units l) 0 t).tail := by
  induction n generalizing l t u with
  | zero => exact absurd hn (Nat.not_lt_zero _)
  | succ n ih =>
    rw [next]
    by_cases hm : m ∈ t
    · obtain ⟨x, y, rfl, hx⟩ := List.eq_append_cons_of_mem hm
      obtain rfl : u = units l := hu (by simp)
      rw [List.length_append, List.length_cons] at hn
      rw [← Place.behind, turn_cons h hx, pure_bind]
      by_cases hy : body y = []
      · have hbuffer : l ++ (x ++ m :: y) = l ++ x ++ [m] ++ y := by simp
        rw [if_pos hy, scanFrom_pass hx hy]
        rw [hbuffer] at h ⊢
        exact ih h (by omega) fun _ => rfl
      · obtain ⟨r, hsplit, hr⟩ := exists_body_append y
        have hbuffer : l ++ (x ++ m :: y) = l ++ x ++ [m] ++ body y ++ r := by
          simp [← hsplit]
        have hfound := scanFrom_found (l := l) hx (isBody_body hy) hr
        rw [← hsplit] at hfound
        rw [if_neg hy, hfound, hbuffer]
        exact ⟨_, rfl, l ++ x ++ [m] ++ body y, r, rfl, rfl, fun _ => rfl, rfl⟩
    · -- nothing is left, and the offset in units stays where it is
      rw [turn_of_not_mem hm, pure_bind, scanFrom_of_not_mem hm]
      exact ⟨_, rfl, l ++ t, [], (List.append_nil _).symm, rfl, fun h => absurd rfl h, rfl⟩

/-- The next mention is the first of those ahead, and behind it the others are ahead. -/
theorem next_eq (hfits : Fits buffer) (h : Ahead m buffer p spans) :
    ∃ p', next m buffer (buffer.length + 1) p = pure (spans.head?, p') ∧
      Ahead m buffer p' spans.tail := by
  obtain ⟨byte, unit⟩ := p
  obtain ⟨l, t, rfl, hbyte, hunit, rfl⟩ := h
  obtain rfl : byte = bytes l := hbyte
  refine next_behind hfits ?_ hunit
  rw [List.length_append]
  omega

/-- All mentions ahead are read, and then none is ahead. -/
theorem readAll_eq (hfits : Fits buffer) (h : Ahead m buffer p spans) (hn : spans.length < n) :
    ∃ p', readAll m buffer n p = pure (spans, p') ∧ Ahead m buffer p' [] := by
  induction spans generalizing p n with
  | nil =>
    obtain ⟨n, rfl⟩ := Nat.exists_eq_succ_of_ne_zero (Nat.ne_zero_of_lt hn)
    obtain ⟨p', hnext, hp'⟩ := next_eq hfits h
    rw [readAll, hnext]
    exact ⟨p', rfl, hp'⟩
  | cons s spans ih =>
    obtain ⟨n, rfl⟩ := Nat.exists_eq_succ_of_ne_zero (Nat.ne_zero_of_lt hn)
    obtain ⟨p', hnext, hp'⟩ := next_eq hfits h
    obtain ⟨p'', hall, hp''⟩ := ih hp' (Nat.lt_of_succ_lt_succ hn)
    rw [readAll, hnext]
    simp only [List.head?_cons, pure_bind, hall]
    exact ⟨p'', rfl, hp''⟩

/-! ## Requests -/

/-- A request is answered as by the indices, and leads to places with those mentions ahead that are
so from the indices on. -/
theorem answer_eq (hfits : Fits buffer)
    (h : Ahead m buffer p ((Mentions.scan m buffer).drop i))
    (hkept : Ahead m buffer kept ((Mentions.scan m buffer).drop k)) (q : Request) :
    let next := Index.answer (Mentions.scan m buffer) i k q
    ∃ p' kept', answer m buffer p kept q = pure (next.1, p', kept') ∧
      Ahead m buffer p' ((Mentions.scan m buffer).drop next.2.1) ∧
      Ahead m buffer kept' ((Mentions.scan m buffer).drop next.2.2) := by
  cases q with
  | next =>
    obtain ⟨p', hnext, hp'⟩ := next_eq hfits h
    rw [List.head?_drop] at hnext
    rw [Index.tail_drop] at hp'
    rw [answer, hnext]
    exact ⟨p', kept, rfl, hp', hkept⟩
  | rewind => exact ⟨_, _, rfl, ahead_start m buffer, hkept⟩
  | keep => exact ⟨_, _, rfl, h, h⟩
  | takeUp => exact ⟨_, _, rfl, hkept, hkept⟩
  | count =>
    obtain ⟨p', hall, -⟩ := readAll_eq hfits h (Nat.lt_succ_of_le h.length_le)
    refine ⟨p, kept, ?_, h, hkept⟩
    rw [answer, hall, Index.answer, ← List.length_drop]
    rfl
  | readAll =>
    obtain ⟨p', hall, hp'⟩ := readAll_eq hfits h (Nat.lt_succ_of_le h.length_le)
    rw [answer, hall]
    refine ⟨p', kept, rfl, ?_, hkept⟩
    rw [Index.answer, List.drop_length]
    exact hp'

/-- Requests are answered as by the indices, and nothing goes wrong. -/
theorem run_eq (hfits : Fits buffer) (h : Ahead m buffer p ((Mentions.scan m buffer).drop i))
    (hkept : Ahead m buffer kept ((Mentions.scan m buffer).drop k)) (qs : List Request) :
    run m buffer p kept qs = pure (Index.run (Mentions.scan m buffer) i k qs) := by
  induction qs generalizing p kept i k with
  | nil => rfl
  | cons q qs ih =>
    obtain ⟨p', kept', hanswer, hp', hkept'⟩ := answer_eq hfits h hkept q
    rw [run, hanswer, pure_bind]
    simp only [ih hp' hkept', pure_bind]
    rfl

/-- **Reading mentions is indexing them.** A reader that starts at the start of a buffer answers
every list of requests as an index into the list of all mentions does that starts at zero: the next
mention is the one at the index, which goes on to the next one, or there is none as long as the
index is behind the last; to rewind sets the index to zero, and to take up the copy that was kept
sets it to the index that was kept. After any requests, what the reader still gives, and what the
copy gives, are the mentions from its index on, at their offsets. The same answers are given by the
iterator that steps through the bytes of the buffer, and nothing goes wrong in it. -/
theorem reading_is_indexing (m : Char) (buffer : Text) (qs : List Request) :
    let spans := Mentions.scan m buffer
    let fresh := Reader.ofBuffer m buffer
    fresh.run fresh qs = Index.run spans 0 0 qs ∧
    (fresh.after fresh qs).1.Yields (spans.drop (Index.after spans 0 0 qs).1) ∧
    (fresh.after fresh qs).2.Yields (spans.drop (Index.after spans 0 0 qs).2) ∧
    (Fits buffer → run m buffer ⟨0, 0⟩ ⟨0, 0⟩ qs = .ok (Index.run spans 0 0 qs)) := by
  intro spans fresh
  have hfresh : fresh.StandsAt m buffer 0 := standsAt_ofBuffer m buffer
  obtain ⟨hrun, hafter, hkept⟩ := hfresh.run_after hfresh qs
  refine ⟨hrun, ?_, ?_, fun hfits => ?_⟩
  · rw [← hafter.remaining_eq]
    exact yields_remaining _
  · rw [← hkept.remaining_eq]
    exact yields_remaining _
  · exact run_eq hfits (ahead_start m buffer) (ahead_start m buffer) qs

/-- The copy is kept between two mentions, and taken up again once nothing is left. -/
theorem reading_is_indexing_astral :
    let buffer := "😀@@al. 😀@b".toList
    let fresh := Reader.ofBuffer '@' buffer
    let qs : List Request := [.next, .keep, .next, .next, .takeUp, .next, .rewind, .count]
    let al : Span := ⟨3, 6, "@al".toList⟩
    let b : Span := ⟨10, 12, "@b".toList⟩
    let replies : List Reply := [.mention (some al), .done, .mention (some b), .mention none, .done,
      .mention (some b), .done, .count 2]
    fresh.run fresh qs = replies ∧ (fresh.after fresh qs).1.Yields [al, b] ∧
      (fresh.after fresh qs).2.Yields [b] ∧ run '@' buffer ⟨0, 0⟩ ⟨0, 0⟩ qs = .ok replies := by
  intro buffer fresh qs al b replies
  have hindex : Index.run (Mentions.scan '@' buffer) 0 0 qs = replies := by decide +kernel
  obtain ⟨hrun, hyields, hkept, hchecked⟩ := reading_is_indexing '@' buffer qs
  refine ⟨hrun.trans hindex, hyields, hkept, ?_⟩
  rw [hchecked (by decide +kernel), hindex]

end Mentions.Checked
