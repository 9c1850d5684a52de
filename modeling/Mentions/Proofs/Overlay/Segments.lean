import Mathlib.Data.List.Chain
import Mentions.Overlay.Segment
import Mentions.Proofs.Scan.Spans

/-!
# What the segments of an overlay show

`Draws` says by rules what the segments of a text are: before each mention, and behind the last one,
stands a text that has a segment if anything of it is visible (`gap`). The segments of a buffer keep
these rules (`draws_ofBuffer`), so what holds of them is proved by induction on the rules.

Main statement, assembled from one such induction for each of its parts: the segments follow each
other, the mentions among them are those of the scan, what belongs to no segment is invisible, and
what the segments stand for is the visible text of the buffer (`segments_show_buffer`).
-/

namespace Mentions.Overlay

open Text

variable {m c : Char} {name? : Text → Option Text} {pos : Nat} {b g l r t x y : Text} {s : Span}
  {spans : List Span} {seg : Segment} {segs : List Segment}

/-! ## The rules -/

/-- The segment of a text without mentions that starts at offset `pos`, if it is visible. -/
def gap (pos : Nat) (g : Text) : List Segment :=
  if strip g = [] then [] else [⟨.text, strip g, pos, pos + units g, none⟩]

/-- The segments of a text that starts at offset `pos` and has the given mentions. -/
inductive Draws (m : Char) (name? : Text → Option Text) :
    Nat → Text → List Span → List Segment → Prop
  /-- There is no mention. -/
  | last {pos : Nat} {g : Text} : Draws m name? pos g [] (gap pos g)
  /-- A mention is drawn behind the text before it, and then the text behind it. -/
  | next {pos : Nat} {g b t : Text} {spans : List Span} {segs : List Segment} (hb : IsBody b)
      (ht : Draws m name? (pos + units g + unitsOf m + units b) t spans segs) :
      Draws m name? pos (g ++ m :: (b ++ t))
        (⟨pos + units g, pos + units g + unitsOf m + units b, m :: b⟩ :: spans)
        (gap pos g ++
          mention name? ⟨pos + units g, pos + units g + unitsOf m + units b, m :: b⟩ :: segs)

/-- A part of a buffer without mentions has the segment of its text. -/
theorem plain_append (l g r : Text) :
    plain (l ++ (g ++ r)) (units l) (units l + units g) = gap (units l) g := by
  rw [plain, gap, slice?_append]
  cases g with
  | nil => simp [strip]
  | cons c g =>
    have hpos := unitsOf_pos c
    have hlt : units l < units l + units (c :: g) := by
      rw [units_cons]
      omega
    rw [if_pos hlt]
    simp only [List.isEmpty_iff]

/-- The segments of the rest of a buffer are those that the rules say. -/
theorem draws_segmentsFrom (h : Scans m (units l) t spans) :
    Draws m name? (units l) t spans (segmentsFrom name? (l ++ t) (units l) spans) := by
  induction spans generalizing l t with
  | nil =>
    have hplain := plain_append l t []
    rw [List.append_nil, ← units_append] at hplain
    rw [segmentsFrom, hplain]
    exact .last
  | cons s spans ih =>
    obtain ⟨g, b, r, rfl, hb, rfl, hr⟩ := h.exists_eq_of_cons
    have hlen : units l + units g + unitsOf m + units b = units (l ++ (g ++ m :: b)) := by
      simp only [units_append, units_cons]
      omega
    have hrest := hr
    rw [hlen] at hrest
    have hsegs := ih hrest
    rw [← hlen, List.append_assoc, List.append_assoc, List.cons_append] at hsegs
    rw [segmentsFrom, plain_append]
    exact .next hb hsegs

theorem draws_ofBuffer (m : Char) (name? : Text → Option Text) (buffer : Text) :
    Draws m name? 0 buffer (scan m buffer) (Segment.ofBuffer m name? buffer) :=
  draws_segmentsFrom (l := []) (scans_scan m buffer)

/-! ## Text without mentions -/

theorem mem_gap_iff :
    seg ∈ gap pos g ↔ strip g ≠ [] ∧ seg = ⟨.text, strip g, pos, pos + units g, none⟩ := by
  rw [gap]
  split
  · next h => simp [h]
  · next h => simp [h]

/-- The segment of a text has its range. -/
theorem bounds_of_mem_gap (h : seg ∈ gap pos g) :
    seg.start = pos ∧ seg.start < seg.stop ∧ seg.stop = pos + units g := by
  obtain ⟨hg, rfl⟩ := mem_gap_iff.1 h
  have hpos : 0 < units g := by
    refine units_pos ?_
    rintro rfl
    exact hg rfl
  exact ⟨rfl, Nat.lt_add_of_pos_right hpos, rfl⟩

/-- There is no more than one segment. -/
theorem pairwise_gap (R : Segment → Segment → Prop) (pos : Nat) (g : Text) :
    (gap pos g).Pairwise R := by
  rw [gap]
  split
  · exact .nil
  · exact List.pairwise_singleton _ _

/-! ## Ranges -/

/-- No segment is empty, and none starts before the text. -/
theorem Draws.bounds (h : Draws m name? pos t spans segs) (hseg : seg ∈ segs) :
    pos ≤ seg.start ∧ seg.start < seg.stop := by
  induction h with
  | last =>
    obtain ⟨hstart, hlt, -⟩ := bounds_of_mem_gap hseg
    exact ⟨Nat.le_of_eq hstart.symm, hlt⟩
  | next _ _ ih =>
    have hpos := unitsOf_pos m
    rcases List.mem_append.1 hseg with hseg | hseg
    · obtain ⟨hstart, hlt, -⟩ := bounds_of_mem_gap hseg
      exact ⟨Nat.le_of_eq hstart.symm, hlt⟩
    rcases List.mem_cons.1 hseg with rfl | hseg
    · simp only [mention]
      omega
    · have := ih hseg
      omega

/-- Each segment ends before the next one starts. -/
theorem Draws.pairwise (h : Draws m name? pos t spans segs) :
    segs.Pairwise fun a b => a.stop ≤ b.start := by
  induction h with
  | last => exact pairwise_gap _ _ _
  | @next pos g b t spans segs _ ht ih =>
    refine List.pairwise_append.2 ⟨pairwise_gap _ _ _, .cons ?_ ih, ?_⟩
    · intro seg hseg
      exact (ht.bounds hseg).1
    · intro seg hseg seg' hseg'
      obtain ⟨-, -, hstop⟩ := bounds_of_mem_gap hseg
      rcases List.mem_cons.1 hseg' with rfl | hseg'
      · exact Nat.le_of_eq hstop
      · have := (ht.bounds hseg').1
        omega

/-! ## Kinds -/

/-- The mentions that are drawn are those that are listed. -/
theorem Draws.filter_mention (h : Draws m name? pos t spans segs) :
    segs.filter (·.kind = .mention) = spans.map (mention name?) := by
  have hgap (pos : Nat) (g : Text) : (gap pos g).filter (·.kind = .mention) = [] := by
    refine List.filter_eq_nil_iff.2 ?_
    intro seg hseg
    obtain ⟨-, rfl⟩ := mem_gap_iff.1 hseg
    simp
  induction h with
  | last => exact hgap _ _
  | next _ _ ih =>
    rw [List.filter_append, hgap, List.nil_append, List.filter_cons_of_pos (by rfl), ih]
    rfl

/-- Of two neighbours, one is a mention. -/
theorem Draws.isChain (h : Draws m name? pos t spans segs) :
    segs.IsChain fun a b => a.kind = .mention ∨ b.kind = .mention := by
  induction h with
  | last => exact (pairwise_gap _ _ _).isChain
  | next _ _ ih =>
    refine List.isChain_append.2 ⟨(pairwise_gap _ _ _).isChain, ?_, ?_⟩
    · exact List.isChain_cons.2 ⟨fun _ _ => .inl rfl, ih⟩
    · rintro seg - seg' hseg'
      cases hseg'
      exact .inr rfl

/-- A segment of text shows what is visible of a part of the text. -/
theorem Draws.exists_eq_of_text (h : Draws m name? pos t spans segs) (hseg : seg ∈ segs)
    (hkind : seg.kind = .text) :
    ∃ x g y, t = x ++ (g ++ y) ∧ strip g ≠ [] ∧
      seg = ⟨.text, strip g, pos + units x, pos + units x + units g, none⟩ := by
  induction h with
  | @last pos g =>
    obtain ⟨hg, rfl⟩ := mem_gap_iff.1 hseg
    exact ⟨[], g, [], by simp, hg, rfl⟩
  | @next pos g b t spans segs _ _ ih =>
    rcases List.mem_append.1 hseg with hseg | hseg
    · obtain ⟨hg, rfl⟩ := mem_gap_iff.1 hseg
      exact ⟨[], g, _, rfl, hg, rfl⟩
    rcases List.mem_cons.1 hseg with rfl | hseg
    · cases hkind
    · obtain ⟨x, g', y, rfl, hg', rfl⟩ := ih hseg
      refine ⟨g ++ m :: (b ++ x), g', y, by simp, hg', ?_⟩
      simp only [units_append, units_cons, Segment.mk.injEq, true_and, and_true]
      omega

/-! ## Nothing visible is lost -/

/-- A visible character of a text without mentions belongs to its segment. -/
theorem exists_mem_gap (pos : Nat) (hg : g = x ++ c :: y) (hc : isZeroWidth c = false) :
    ∃ seg ∈ gap pos g, seg.start ≤ pos + units x ∧ pos + units x + unitsOf c ≤ seg.stop := by
  have hne : strip g ≠ [] := by
    intro h0
    rw [strip_eq_nil_iff.1 h0 c (by simp [hg])] at hc
    cases hc
  refine ⟨_, mem_gap_iff.2 ⟨hne, rfl⟩, Nat.le_add_right _ _, ?_⟩
  simp only [hg, units_append, units_cons]
  omega

/-- A visible character belongs to a segment. -/
theorem Draws.exists_mem (h : Draws m name? pos t spans segs) (ht : t = x ++ c :: y)
    (hc : isZeroWidth c = false) :
    ∃ seg ∈ segs, seg.start ≤ pos + units x ∧ pos + units x + unitsOf c ≤ seg.stop := by
  induction h generalizing x with
  | last => exact exists_mem_gap _ ht hc
  | @next pos g b t spans segs _ _ ih =>
    rcases Nat.lt_or_ge (units x) (units g) with hlt | hge
    · -- the character stands before the mention
      obtain ⟨d, z, hg, hd⟩ := append_of_lt ht.symm hlt
      obtain ⟨rfl, -⟩ := List.cons.inj hd
      obtain ⟨seg, hseg, hrange⟩ := exists_mem_gap pos hg hc
      exact ⟨seg, List.mem_append_left _ hseg, hrange⟩
    obtain ⟨z, rfl, hz⟩ := append_of_le ht hge
    rw [← List.cons_append] at hz
    rcases Nat.lt_or_ge (units z) (units (m :: b)) with hlt | hge
    · -- the character belongs to the mention
      obtain ⟨d, w, hb, hd⟩ := append_of_lt hz.symm hlt
      obtain ⟨rfl, -⟩ := List.cons.inj hd
      have hlen := congrArg units hb
      refine ⟨_, List.mem_append_right _ List.mem_cons_self, ?_⟩
      simp only [units_append, units_cons, mention] at hlen ⊢
      omega
    · obtain ⟨w, rfl, rfl⟩ := append_of_le hz hge
      obtain ⟨seg, hseg, hrange⟩ := ih rfl
      refine ⟨seg, List.mem_append_right _ (List.mem_cons_of_mem _ hseg), ?_⟩
      simp only [units_append, units_cons]
      omega

/-- What a segment stands for: a text or a mention. -/
def Segment.shows (seg : Segment) : Text :=
  match seg.span? with
  | some s => s.text
  | none => seg.content

/-- The segments stand for the visible text. -/
theorem Draws.flatMap_shows (hz : isZeroWidth m = false) (h : Draws m name? pos t spans segs) :
    segs.flatMap Segment.shows = strip t := by
  have hgap (pos : Nat) (g : Text) : (gap pos g).flatMap Segment.shows = strip g := by
    rw [gap]
    split
    · next h => exact h.symm
    · exact List.append_nil _
  induction h with
  | last => exact hgap _ _
  | @next pos g b t spans segs hb _ ih =>
    rw [List.flatMap_append, List.flatMap_cons, hgap, ih, strip_append, ← List.cons_append,
      strip_append, hb.strip_cons hz]
    rfl

/-! ## The segments of a buffer -/

/-- **The segments show the buffer**: nothing visible is lost, added or moved. The mentions among
them are those of the scan, each under its display name or its username. The segments are in order
and apart from each other, none is empty, and no text stands next to another one. A segment of text
shows what is visible of its range, which is something. What belongs to no segment is invisible, and
what the segments stand for is the visible text. -/
theorem segments_show_buffer (m : Char) (name? : Text → Option Text) (buffer : Text)
    (hz : isZeroWidth m = false) :
    let segs := Segment.ofBuffer m name? buffer
    segs.filter (·.kind = .mention) = (scan m buffer).map (fun s =>
      ⟨.mention, (name? s.username).getD s.username, s.start, s.stop, some s⟩) ∧
    (∀ seg ∈ segs, seg.start < seg.stop) ∧
    segs.Pairwise (fun a b => a.stop ≤ b.start) ∧
    segs.IsChain (fun a b => a.kind = .mention ∨ b.kind = .mention) ∧
    (∀ seg ∈ segs, seg.kind = .text → seg.span? = none ∧ seg.content ≠ [] ∧
      ∃ t, buffer.slice? seg.start seg.stop = some t ∧ seg.content = strip t) ∧
    (∀ l c r u, buffer = l ++ c :: r → units l ≤ u → u < units l + unitsOf c →
      (∀ seg ∈ segs, ¬(seg.start ≤ u ∧ u < seg.stop)) → isZeroWidth c = true) ∧
    segs.flatMap Segment.shows = strip buffer := by
  intro segs
  have h : Draws m name? 0 buffer (scan m buffer) segs := draws_ofBuffer m name? buffer
  refine ⟨h.filter_mention, fun seg hseg => (h.bounds hseg).2, h.pairwise, h.isChain, ?_, ?_,
    h.flatMap_shows hz⟩
  · intro seg hseg hkind
    obtain ⟨x, g, y, hbuffer, hg, rfl⟩ := h.exists_eq_of_text hseg hkind
    refine ⟨rfl, hg, g, ?_, rfl⟩
    rw [hbuffer, Nat.zero_add]
    exact slice?_append x g y
  · intro l c r u hbuffer hle hlt hout
    rw [← Bool.not_eq_false]
    intro hc
    obtain ⟨seg, hseg, hstart, hstop⟩ := h.exists_mem hbuffer hc
    exact hout seg hseg ⟨by omega, by omega⟩

/-- A mention that a repair has cut, and one that only a separator keeps apart from the next. -/
theorem segments_show_buffer_separated :
    isZeroWidth '@' = false ∧
    Segment.ofBuffer '@' (fun name => if name = ['a', 'l'] then some "Al B".toList else none)
        "@al\u200bice @b\u200b@c".toList =
      [⟨.mention, "Al B".toList, 0, 3, some ⟨0, 3, "@al".toList⟩⟩,
        ⟨.text, "ice ".toList, 3, 8, none⟩,
        ⟨.mention, "b".toList, 8, 10, some ⟨8, 10, "@b".toList⟩⟩,
        ⟨.mention, "c".toList, 11, 13, some ⟨11, 13, "@c".toList⟩⟩] ∧
    (Segment.ofBuffer '@' (fun name => if name = ['a', 'l'] then some "Al B".toList else none)
        "@al\u200bice @b\u200b@c".toList).flatMap Segment.shows = "@alice @b@c".toList := by
  have hz : isZeroWidth '@' = false := by decide
  obtain ⟨-, -, -, -, -, -, hshows⟩ := segments_show_buffer '@'
    (fun name => if name = ['a', 'l'] then some "Al B".toList else none)
    "@al\u200bice @b\u200b@c".toList hz
  refine ⟨hz, ?_, hshows.trans ?_⟩
  · decide +kernel
  · decide

end Mentions.Overlay
