import Mentions.Proofs.Overlay.Segments
import Mentions.Proofs.Scan.Append

/-!
# The segments of joined texts

Where a text is cut, the mentions before and behind the cut keep their segments. Only the text
around the cut is drawn otherwise: the gap before it and the gap behind it become one.

So the rules for segments are used from both ends. The last gap of a text can be exchanged for
whatever the rules draw from its start on (`Draws.exists_last`), and the first gap of a text can be
lengthened to the left (`Draws.exists_first`). The rules say nothing about the text before, so that
segments can be moved (`Draws.shift`), and they leave no choice (`Draws.eq_ofBuffer`).
-/

namespace Mentions.Overlay

open Text

variable {m : Char} {name? : Text → Option Text} {pos n : Nat} {g l r t x y z : Text}
  {spans spans' : List Span} {seg : Segment} {segs segs' : List Segment}

/-! ## The rules and the function -/

/-- The rules leave no choice. -/
theorem Draws.eq_segmentsFrom (h : Draws m name? pos t spans segs) (hl : units l = pos) :
    segs = segmentsFrom name? (l ++ t) pos spans := by
  induction h generalizing l with
  | @last pos g =>
    subst hl
    have hplain := plain_append l g []
    rw [List.append_nil, ← units_append] at hplain
    rw [segmentsFrom, hplain]
  | @next pos g b t spans segs _ _ ih =>
    subst hl
    have hlen : units (l ++ (g ++ m :: b)) = units l + units g + unitsOf m + units b := by
      simp only [units_append, units_cons]
      omega
    have hrest := ih hlen
    rw [List.append_assoc, List.append_assoc, List.cons_append] at hrest
    rw [segmentsFrom, plain_append, hrest]

theorem Draws.eq_ofBuffer (h : Draws m name? 0 t (scan m t) segs) :
    segs = Segment.ofBuffer m name? t :=
  h.eq_segmentsFrom (l := []) units_nil

/-! ## Moving segments -/

/-- The segment some places further to the right. -/
def Segment.shift (n : Nat) (seg : Segment) : Segment :=
  { seg with start := seg.start + n, stop := seg.stop + n, span? := seg.span?.map (Span.shift n) }

@[simp] theorem Segment.shift_kind (n : Nat) (seg : Segment) : (seg.shift n).kind = seg.kind := rfl

@[simp] theorem Segment.shift_content (n : Nat) (seg : Segment) :
    (seg.shift n).content = seg.content := rfl

theorem gap_shift (pos n : Nat) (g : Text) :
    (gap pos g).map (Segment.shift n) = gap (pos + n) g := by
  rw [gap, gap]
  split
  · rfl
  · simp only [List.map_cons, List.map_nil, Segment.shift, Option.map_none, Nat.add_right_comm]

/-- The rules are the same wherever the text starts. -/
theorem Draws.shift (h : Draws m name? pos t spans segs) (n : Nat) :
    Draws m name? (pos + n) t (spans.map (Span.shift n)) (segs.map (Segment.shift n)) := by
  induction h with
  | last =>
    rw [List.map_nil, gap_shift]
    exact .last
  | @next pos g b t spans segs hb _ ih =>
    have hstart : pos + units g + n = pos + n + units g := by omega
    have hstop : pos + units g + unitsOf m + units b + n =
        pos + n + units g + unitsOf m + units b := by omega
    rw [hstop] at ih
    have hnext := Draws.next (g := g) hb ih
    simp only [List.map_append, List.map_cons, gap_shift, Segment.shift, mention, Span.shift,
      Option.map_some, hstart, hstop]
    exact hnext

/-! ## The last gap and the first one -/

/-- A text ends in a gap, which may be exchanged for any text that the rules draw. -/
theorem Draws.exists_last (h : Draws m name? pos t spans segs) :
    ∃ l g front, t = l ++ g ∧ segs = front ++ gap (pos + units l) g ∧
      (∀ seg ∈ front, seg.start < seg.stop ∧ seg.stop ≤ pos + units l) ∧
      ∀ {z spans' segs'}, Draws m name? (pos + units l) (g ++ z) spans' segs' →
        Draws m name? pos (t ++ z) (spans ++ spans') (front ++ segs') := by
  induction h with
  | @last pos g =>
    refine ⟨[], g, [], rfl, rfl, nofun, ?_⟩
    intro z spans' segs' hz
    exact hz
  | @next pos g b t spans segs hb _ ih =>
    obtain ⟨l, g', front, rfl, rfl, hfront, hjoin⟩ := ih
    have hlen : pos + units g + unitsOf m + units b + units l =
        pos + units (g ++ m :: (b ++ l)) := by
      simp only [units_append, units_cons]
      omega
    rw [hlen] at hfront hjoin ⊢
    refine ⟨g ++ m :: (b ++ l), g',
      gap pos g ++
        mention name? ⟨pos + units g, pos + units g + unitsOf m + units b, m :: b⟩ :: front,
      by simp, by simp, ?_, ?_⟩
    · intro seg hseg
      rcases List.mem_append.1 hseg with hseg | hseg
      · obtain ⟨-, hlt, hstop⟩ := bounds_of_mem_gap hseg
        exact ⟨hlt, by rw [hstop, units_append]; omega⟩
      rcases List.mem_cons.1 hseg with rfl | hseg
      · have hpos := unitsOf_pos m
        simp only [mention, units_append, units_cons]
        omega
      · exact hfront seg hseg
    · intro z spans' segs' hz
      have hnext := Draws.next (g := g) hb (hjoin hz)
      simpa using hnext

/-- A text begins with a gap, to which any text may be added on the left. -/
theorem Draws.exists_first (h : Draws m name? pos t spans segs) :
    ∃ g r rest, t = g ++ r ∧ segs = gap pos g ++ rest ∧
      (∀ seg ∈ rest, pos + units g ≤ seg.start) ∧
      ∀ {y start}, start + units y = pos →
        Draws m name? start (y ++ t) spans (gap start (y ++ g) ++ rest) := by
  cases h with
  | last =>
    refine ⟨t, [], [], by simp, by simp, nofun, ?_⟩
    intro y start hy
    rw [List.append_nil]
    exact .last
  | @next _ g b t spans segs hb ht =>
    refine ⟨g, _, _, rfl, rfl, ?_, ?_⟩
    · intro seg hseg
      rcases List.mem_cons.1 hseg with rfl | hseg
      · exact Nat.le_refl _
      · have := (ht.bounds hseg).1
        omega
    · intro y start hy
      have hlen : start + units (y ++ g) = pos + units g := by
        rw [units_append]
        omega
      rw [← hlen] at ht
      have hnext := Draws.next (g := y ++ g) hb ht
      rw [hlen, List.append_assoc] at hnext
      exact hnext

end Mentions.Overlay
