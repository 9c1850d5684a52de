import Mentions.Atomic.Movement
import Mentions.Proofs.Body
import Mentions.Proofs.Checked.Offsets
import Mentions.Proofs.Word.Segmentation

/-!
# Lines and words, checked

The start of a line and the places where word jumps land are found in the text before or behind the
cursor: as a byte index in that text, which is turned back into an offset of the buffer. The cursor
is known to address a place, and so the first step, looking its byte index up, must not fail.

It does not, and each byte index that is found stands between two characters of the buffer, because
it is the length of the text before a line, or of some pieces in a row, over any segmentation. What
comes out is what the library says (`lineStart_eq`, `previousStart_eq`, `nextEnd_eq`).
-/

namespace Mentions.Checked

open Text

variable {u : Nat} {l p r t : Text} {earlier later ps : List Text}

/-! ## The cursor -/

/-- A place is found where it is known to be. -/
theorem require_byteIndex (h : Fits (l ++ r)) :
    (byteIndex (l ++ r) (units l) >>= fun b => require b) = pure (bytes l) := by
  rw [byteIndex_eq h, pure_bind, byteIndex?_append, require_some]

/-- The byte index of what ends inside the left part of a buffer. -/
theorem unitIndex_append_left {x y : Text} (h : Fits (l ++ r)) (hl : l = x ++ y) :
    unitIndex (l ++ r) (bytes x) = pure (units x) := by
  subst hl
  rw [List.append_assoc] at h ⊢
  exact unitIndex_append h

/-! ## Lines -/

/-- The byte index of the last occurrence of a character. -/
def findLast (c : Char) (t : Text) : Option Nat :=
  if c ∈ t then some (bytes (takeThrough (· = c) t).dropLast) else none

/-- The start of the line that the cursor is in. -/
def lineStart (buffer : Text) (cursor : Nat) : Checked Nat := do
  let first ← byteIndex buffer cursor >>= fun b => require b
  let before ← takeBytes buffer first
  match findLast '\n' before with
  | some b => unitIndex buffer (← add b 1)
  | none => return 0

theorem lineStart_eq (h : Fits t) (hu : Addressable t u) :
    lineStart t u = pure (Atomic.lineStart t u) := by
  obtain ⟨l, r, rfl, rfl⟩ := addressable_iff.1 hu
  rw [lineStart, require_byteIndex h, pure_bind, takeBytes_append, pure_bind, Atomic.lineStart,
    cut?_append, findLast]
  obtain ⟨line, hsplit, hline⟩ := exists_takeThrough_append (fun c => decide (c = '\n')) l
  by_cases hmem : '\n' ∈ l
  · have hne : takeThrough (fun c => decide (c = '\n')) l ≠ [] := by
      intro h0
      have hfalse := takeThrough_eq_nil_iff.1 h0 _ hmem
      simp at hfalse
    obtain ⟨x, c, hx, hc⟩ := exists_takeThrough_eq_concat hne
    obtain rfl := of_decide_eq_true hc
    -- the line starts one byte behind the line feed
    have hfits : Fits (x ++ ['\n']) := by
      rw [← hx]
      refine Fits.left (r := line ++ r) ?_
      rwa [← List.append_assoc, ← hsplit]
    have hstart : add (bytes x) 1 = pure (bytes (x ++ ['\n'])) := add_bytes hfits
    rw [if_pos hmem, hx, List.dropLast_concat]
    simp only [hstart, pure_bind]
    rw [← hx]
    exact unitIndex_append_left h hsplit
  · have hnil : takeThrough (fun c => decide (c = '\n')) l = [] := by
      refine takeThrough_eq_nil_iff.2 fun c hc => decide_eq_false ?_
      rintro rfl
      exact hmem hc
    rw [if_neg hmem]
    show pure 0 = pure (units (takeThrough (fun c => decide (c = '\n')) l))
    rw [hnil]
    rfl

/-! ## Words -/

/-- Pieces in a row, each with the byte index where it starts; the first one starts at `b`. -/
def startsFrom : (b : Nat) → List Text → List (Nat × Text)
  | _, [] => []
  | b, p :: ps => (b, p) :: startsFrom (b + bytes p) ps

/-- Where a word jump to the left lands. -/
def previousStart (s : Word.Segmentation) (buffer : Text) (cursor : Nat) :
    Checked (Option Nat) := do
  let first ← byteIndex buffer cursor >>= fun b => require b
  let before ← takeBytes buffer first
  match (startsFrom 0 (s.pieces before)).reverse.find? fun w => !isBlank w.2 with
  | some (b, _) => return some (← unitIndex buffer b)
  | none => return none

/-- Where a word jump to the right lands. -/
def nextEnd (s : Word.Segmentation) (buffer : Text) (cursor : Nat) : Checked (Option Nat) := do
  let first ← byteIndex buffer cursor >>= fun b => require b
  let after ← dropBytes buffer first
  match (startsFrom 0 (s.pieces after)).find? fun w => !isBlank w.2 with
  | some (b, p) => return some (← unitIndex buffer (← add (← add first b) (bytes p)))
  | none => return none

theorem startsFrom_append (b : Nat) (ps qs : List Text) :
    startsFrom b (ps ++ qs) = startsFrom b ps ++ startsFrom (b + bytes ps.flatten) qs := by
  induction ps generalizing b with
  | nil => rfl
  | cons p ps ih =>
    rw [List.cons_append, startsFrom, ih, List.flatten_cons, bytes_append, startsFrom,
      List.cons_append, Nat.add_assoc]

theorem mem_of_mem_startsFrom {b : Nat} {w : Nat × Text} (h : w ∈ startsFrom b ps) : w.2 ∈ ps := by
  induction ps generalizing b with
  | nil => cases h
  | cons p ps ih =>
    rcases List.mem_cons.1 h with rfl | h
    · exact List.mem_cons_self
    · exact List.mem_cons_of_mem p (ih h)

/-- In blank pieces, the search from the left comes to nothing. -/
theorem find?_startsFrom_of_isBlank (hblank : isBlank ps.flatten = true) (b : Nat) :
    (startsFrom b ps).find? (fun w => !isBlank w.2) = none := by
  refine List.find?_eq_none.2 fun w hw => ?_
  rw [Word.isBlank_flatten_iff.1 hblank w.2 (mem_of_mem_startsFrom hw)]
  exact Bool.false_ne_true

/-- In blank pieces, the search from the right comes to nothing. -/
theorem find?_reverse_startsFrom_of_isBlank (hblank : isBlank ps.flatten = true) (b : Nat) :
    (startsFrom b ps).reverse.find? (fun w => !isBlank w.2) = none := by
  have hnone := List.find?_eq_none.1 (find?_startsFrom_of_isBlank hblank b)
  exact List.find?_eq_none.2 fun w hw => hnone w (List.mem_reverse.1 hw)

/-- The first piece that is not blank starts where the blank ones before it end. -/
theorem find?_startsFrom (hearlier : isBlank earlier.flatten = true) (hp : isBlank p = false)
    (b : Nat) :
    (startsFrom b (earlier ++ p :: later)).find? (fun w => !isBlank w.2) =
      some (b + bytes earlier.flatten, p) := by
  rw [startsFrom_append, List.find?_append, find?_startsFrom_of_isBlank hearlier, Option.none_or,
    startsFrom, List.find?_cons_of_pos (by simp [hp])]

/-- The last piece that is not blank starts where the pieces before it end. -/
theorem find?_reverse_startsFrom (hlater : isBlank later.flatten = true) (hp : isBlank p = false)
    (b : Nat) :
    (startsFrom b (earlier ++ p :: later)).reverse.find? (fun w => !isBlank w.2) =
      some (b + bytes earlier.flatten, p) := by
  rw [startsFrom_append, startsFrom, List.reverse_append, List.reverse_cons, List.append_assoc,
    List.find?_append, find?_reverse_startsFrom_of_isBlank hlater, Option.none_or,
    List.singleton_append, List.find?_cons_of_pos (by simp [hp])]

theorem previousStart_eq (h : Fits t) (hu : Addressable t u) (s : Word.Segmentation) :
    previousStart s t u = pure (s.previousStart? t u) := by
  obtain ⟨l, r, rfl, rfl⟩ := addressable_iff.1 hu
  rw [previousStart, require_byteIndex h, pure_bind, takeBytes_append, pure_bind,
    s.previousStart?_append]
  rcases Word.exists_last_not_blank (s.pieces l) with
    hblank | ⟨earlier, p, later, hps, hlater, hp⟩
  · rw [find?_reverse_startsFrom_of_isBlank hblank, Word.lastStartOf?_of_isBlank hblank]
  · -- the earlier pieces begin the text before the cursor
    have hsplit := (s.flatten_pieces l).symm
    rw [hps, List.flatten_append] at hsplit
    rw [hps, find?_reverse_startsFrom hlater hp, Word.lastStartOf?_append hlater hp, Nat.zero_add]
    simp only [unitIndex_append_left h hsplit, pure_bind]

theorem nextEnd_eq (h : Fits t) (hu : Addressable t u) (s : Word.Segmentation) :
    nextEnd s t u = pure (s.nextEnd? t u) := by
  obtain ⟨l, r, rfl, rfl⟩ := addressable_iff.1 hu
  rw [nextEnd, require_byteIndex h, pure_bind, dropBytes_append, pure_bind, s.nextEnd?_append]
  rcases Word.exists_first_not_blank (s.pieces r) with
    hblank | ⟨earlier, p, later, hps, hearlier, hp⟩
  · rw [find?_startsFrom_of_isBlank hblank, Word.firstEndOf?_of_isBlank hblank]
    rfl
  · have hsplit := (s.flatten_pieces r).symm
    rw [hps, List.flatten_append, List.flatten_cons] at hsplit
    rw [hps, find?_startsFrom hearlier hp, Word.firstEndOf?_append hearlier hp, Nat.zero_add]
    generalize earlier.flatten = gap at hsplit ⊢
    subst hsplit
    -- both sums are byte indices of places of the buffer
    have hend : Fits (l ++ gap ++ p ++ later.flatten) := by simpa using h
    have hindex := unitIndex_append hend
    simp only [List.append_assoc] at hindex
    simp only [add_bytes hend.left.left, add_bytes hend.left, pure_bind, List.append_assoc, hindex,
      Option.map_some, units_append]

end Mentions.Checked
