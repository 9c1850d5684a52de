import Mathlib.Algebra.GroupWithZero.Nat
import Mentions.Proofs.Overlay.Walk

/-!
# A caret depends on its own line

Of the buffer, only the text before the cursor matters to the caret, since that is what the walk
draws (`Caret.place_append`). Of this text, only the last line matters to how far right the caret
stands. A line break is part of no mention, so that the segments of the last line are those of the
whole text, except that the gap around the line break loses what stands before it
(`exists_segments_of_line`). Drawing this gap starts again at the left edge, and the segments behind
it hold no line break, so that they are drawn alike however far down they are
(`Caret.left_of_drawAll`).

How far down the caret stands is added up from one multiple of the line height for each segment with
line breaks. If such sums are exact, it is the multiple for all the line breaks before the cursor
(`Caret.top_of_drawAll`).

Main statement: `caret_depends_on_its_line`.
-/

namespace Mentions.Overlay

open Text

variable {α : Type} [Extent α] {measure : Measure Id α} {b g l t x : Text} {pos : Nat}
  {seg : Segment} {segs : List Segment} {spans : List Span} {caret caret' : Caret α}
  {name? : Text → Option Text} {marker : Char}

/-! ## Lines -/

namespace Caret

/-- Behind a line break without another one the last line begins. -/
theorem lastLine_append_cons (x : Text) (hl : '\n' ∉ l) : lastLine (x ++ '\n' :: l) = l := by
  have hpos : ∀ c ∈ l.reverse, decide (c ≠ '\n') = true := by
    intro c hc
    refine decide_eq_true ?_
    rintro rfl
    exact hl (List.mem_reverse.1 hc)
  rw [lastLine, List.reverse_append, List.reverse_cons, List.append_assoc,
    List.takeWhile_append_of_pos hpos, List.singleton_append,
    List.takeWhile_cons_of_neg (by decide), List.append_nil, List.reverse_reverse]

/-- A text without line breaks is a line. -/
theorem lastLine_of_not_mem (hl : '\n' ∉ l) : lastLine l = l := by
  have hall : l.reverse.takeWhile (· ≠ '\n') = l.reverse := by
    refine List.takeWhile_eq_self_iff.2 fun c hc => decide_eq_true ?_
    rintro rfl
    exact hl (List.mem_reverse.1 hc)
  rw [lastLine, hall, List.reverse_reverse]

end Caret

/-- A text is a line, or ends in a line break and a line. -/
theorem exists_line (t : Text) : '\n' ∉ t ∨ ∃ x l, t = x ++ '\n' :: l ∧ '\n' ∉ l := by
  by_cases ht : '\n' ∈ t
  · obtain ⟨l, x, hsplit, hl⟩ := List.eq_append_cons_of_mem (List.mem_reverse.2 ht)
    refine .inr ⟨x.reverse, l.reverse, ?_, fun h => hl (List.mem_reverse.1 h)⟩
    rw [← t.reverse_reverse, hsplit]
    simp
  · exact .inl ht

/-- A text shows no more line breaks than it holds. -/
theorem count_newline_strip (t : Text) : (strip t).count '\n' = t.count '\n' :=
  List.count_filter (by decide)

theorem not_mem_strip (ht : '\n' ∉ t) : '\n' ∉ strip t := fun h => ht (List.mem_of_mem_filter h)

theorem count_newline_body (hb : IsBody b) : b.count '\n' = 0 := by
  refine List.count_eq_zero.2 fun h => ?_
  have hc := hb.chars _ h
  revert hc
  decide

/-! ## The segments of the last line -/

/-- The segments of a line hold no line break, whatever names they show. -/
theorem Draws.not_mem_content (h : Draws marker name? pos t spans segs) (ht : '\n' ∉ t)
    (hseg : seg ∈ segs) (hkind : seg.kind = .text) : '\n' ∉ seg.content := by
  obtain ⟨x, g, y, rfl, -, rfl⟩ := h.exists_eq_of_text hseg hkind
  exact not_mem_strip fun hg => ht (by simp [hg])

/-- The segments of a text and those of the line that it ends in are the same behind the gap around
the line break. -/
theorem exists_segments_of_line (hm : '\n' ≠ marker) (x l : Text) :
    ∃ front p q g g' rest n,
      Segment.ofBuffer marker name? (x ++ '\n' :: l) = front ++ (gap p (g ++ '\n' :: g') ++ rest) ∧
      (Segment.ofBuffer marker name? l).map (Segment.shift n) = gap q g' ++ rest := by
  obtain ⟨x', g, front, rfl, -, -, hjoin⟩ := (draws_ofBuffer marker name? x).exists_last
  have hline := (draws_ofBuffer marker name? l).shift (units x' + units (g ++ ['\n']))
  obtain ⟨g', r, rest, -, hsegs, -, hextend⟩ := hline.exists_first
  simp only [Nat.zero_add] at hjoin hsegs hextend
  have hbreak : ¬Fuses marker (x' ++ g) ('\n' :: l) := fun hf =>
    hf.not_released (released_cons (by decide))
  have hscan : scan marker ((x' ++ g) ++ '\n' :: l) = scan marker (x' ++ g) ++
      (scan marker l).map (Span.shift (units x' + units (g ++ ['\n']))) := by
    have hl := (scans_scan marker l).shift (units x' + units (g ++ ['\n']))
    refine ((scans_scan marker (x' ++ g)).append hbreak (.pass (absurd · hm) ?_)).scan_eq
    simpa [Nat.add_assoc] using hl
  have hdraws := hextend (y := g ++ ['\n']) rfl
  rw [List.append_assoc, List.singleton_append] at hdraws
  have hall := hjoin hdraws
  rw [← hscan] at hall
  refine ⟨front, units x', _, g, g', rest, _, ?_, hsegs⟩
  rw [← hall.eq_ofBuffer, List.append_assoc, List.singleton_append]

/-! ## How far right the caret stands -/

namespace Caret

/-- Segments are drawn alike wherever they stand in the buffer. -/
theorem drawAll_shift (n : Nat) (caret : Caret α) (segs : List Segment) :
    caret.drawAll measure (segs.map (Segment.shift n)) = caret.drawAll measure segs := by
  induction segs generalizing caret with
  | nil => rfl
  | cons seg segs ih => simp only [List.map_cons, drawAll, draw, Segment.shift_kind,
      Segment.shift_content, ih]

/-- A line keeps the caret at its height, and is drawn alike at every height. -/
theorem afterText_line (ht : '\n' ∉ t) (h : caret.afterText measure t = pure caret') :
    caret'.top = caret.top ∧ ∀ top,
      afterText measure ⟨caret.left, top⟩ t = pure ⟨caret'.left, top⟩ := by
  obtain ⟨start, w, hstart, hw, rfl⟩ := afterText_eq_pure_iff.1 h
  rw [List.count_eq_zero.2 ht] at hstart
  obtain rfl := pure_inj hstart
  refine ⟨rfl, fun top => afterText_eq_pure_iff.2 ⟨⟨caret.left, top⟩, w, ?_, hw, rfl⟩⟩
  rw [List.count_eq_zero.2 ht]
  rfl

theorem draw_line (hseg : seg.kind = .text → '\n' ∉ seg.content)
    (h : caret.draw measure seg = pure caret') :
    caret'.top = caret.top ∧ ∀ top,
      draw measure ⟨caret.left, top⟩ seg = pure ⟨caret'.left, top⟩ := by
  unfold draw at h ⊢
  cases hkind : seg.kind with
  | text =>
    simp only [hkind] at h
    exact afterText_line (hseg hkind) h
  | mention =>
    simp only [hkind] at h
    obtain ⟨w, hw, hmove⟩ := bind_eq_pure_iff.1 h
    obtain rfl := pure_inj hmove
    exact ⟨rfl, fun top => bind_eq_pure_iff.2 ⟨w, hw, rfl⟩⟩

theorem drawAll_line (hsegs : ∀ seg ∈ segs, seg.kind = .text → '\n' ∉ seg.content)
    (h : caret.drawAll measure segs = pure caret') :
    caret'.top = caret.top ∧ ∀ top,
      drawAll measure ⟨caret.left, top⟩ segs = pure ⟨caret'.left, top⟩ := by
  induction segs generalizing caret with
  | nil =>
    obtain rfl := pure_inj h
    exact ⟨rfl, fun _ => rfl⟩
  | cons seg segs ih =>
    obtain ⟨hseg, htail⟩ := List.forall_mem_cons.1 hsegs
    obtain ⟨next, hnext, hrest⟩ := bind_eq_pure_iff.1 h
    obtain ⟨htop, hdraw⟩ := draw_line hseg hnext
    obtain ⟨htop', hdraw'⟩ := ih htail hrest
    exact ⟨htop'.trans htop, fun top => bind_eq_pure_iff.2 ⟨_, hdraw top, hdraw' top⟩⟩

/-- A gap with a line break is drawn as if its last line stood at the left edge of an overlay. -/
theorem afterText_newline (hg : '\n' ∉ g)
    (h : caret.afterText measure (x ++ '\n' :: g) = pure caret') :
    origin.afterText measure g = pure ⟨caret'.left, Extent.zero⟩ := by
  obtain ⟨start, w, hstart, hw, rfl⟩ := afterText_eq_pure_iff.1 h
  rw [lastLine_append_cons x hg] at hw
  refine afterText_eq_pure_iff.2 ⟨origin, w, ?_, ?_, ?_⟩
  · rw [List.count_eq_zero.2 hg]
    rfl
  · rw [lastLine_of_not_mem hg]
    exact hw
  · rcases breakLines_eq_pure hstart with ⟨hcount, -⟩ | ⟨-, rfl⟩
    · have hmem : '\n' ∈ x ++ '\n' :: g := List.mem_append_right _ List.mem_cons_self
      exact absurd hmem (List.count_eq_zero.1 hcount)
    · rfl

/-- **The last line decides how far right the caret stands.** If a text can be drawn, its last line
can be drawn by itself, to the same place on the line. -/
theorem left_of_drawAll [LawfulExtent α] (hm : '\n' ≠ marker)
    (h : origin.drawAll measure (Segment.ofBuffer marker name? t) = pure caret) :
    origin.drawAll measure (Segment.ofBuffer marker name? (lastLine t)) =
      pure ⟨caret.left, Extent.zero⟩ := by
  rcases exists_line t with ht | ⟨x, l, rfl, hl⟩
  · rw [lastLine_of_not_mem ht]
    have hsegs : ∀ seg ∈ Segment.ofBuffer marker name? t, seg.kind = .text → '\n' ∉ seg.content :=
      fun _ => (draws_ofBuffer marker name? t).not_mem_content ht
    exact (drawAll_line hsegs h).2 _
  rw [lastLine_append_cons x hl]
  obtain ⟨front, p, q, g, g', rest, n, hall, hline⟩ := exists_segments_of_line hm x l
  -- neither the gap behind the line break nor the segments behind it hold another one
  have hsegs : ∀ seg ∈ gap q g' ++ rest, seg.kind = .text → '\n' ∉ seg.content := by
    have hshift := (draws_ofBuffer marker name? l).shift n
    rw [hline] at hshift
    exact fun seg hseg => hshift.not_mem_content hl hseg
  have hg' : '\n' ∉ strip g' := by
    intro hmem
    have hne : strip g' ≠ [] := List.ne_nil_of_mem hmem
    exact hsegs _ (List.mem_append_left _ (mem_gap_iff.2 ⟨hne, rfl⟩)) rfl hmem
  rw [hall, drawAll_append] at h
  obtain ⟨start, hstart, h⟩ := bind_eq_pure_iff.1 h
  rw [drawAll_append, drawAll_gap (isSum_of_drawAll .zero hstart), strip_append] at h
  obtain ⟨next, hnext, hrest⟩ := bind_eq_pure_iff.1 h
  rw [← drawAll_shift n, hline, drawAll_append, drawAll_gap .zero]
  refine bind_eq_pure_iff.2 ⟨_, afterText_newline hg' hnext, ?_⟩
  exact (drawAll_line (fun seg hseg => hsegs seg (List.mem_append_right _ hseg)) hrest).2 _

end Caret

/-! ## How far down the caret stands -/

/-- The multiples of a length add up without rounding. -/
structure Extent.Exact (height : α) : Prop where
  times_zero : Extent.times 0 height = Extent.zero
  add_times : ∀ a b, Extent.add (Extent.times a height) (Extent.times b height) =
    Extent.times (a + b) height

/-- The number of line breaks that a segment draws. A name is drawn on one line. -/
def Segment.breaks (seg : Segment) : Nat :=
  match seg.kind with
  | .text => seg.content.count '\n'
  | .mention => 0

/-- The segments of a text draw its line breaks. -/
theorem Draws.sum_breaks (hm : '\n' ≠ marker) (h : Draws marker name? pos t spans segs) :
    (segs.map Segment.breaks).sum = t.count '\n' := by
  have hgap (pos : Nat) (g : Text) : ((gap pos g).map Segment.breaks).sum = g.count '\n' := by
    rw [gap, ← count_newline_strip g]
    split
    · next hg => rw [hg]; rfl
    · exact Nat.add_zero _
  induction h with
  | last => exact hgap _ _
  | @next pos g b t spans segs hb _ ih =>
    rw [List.map_append, List.sum_append, List.map_cons, List.sum_cons, hgap, ih,
      List.count_append, List.count_cons_of_ne hm.symm, List.count_append, count_newline_body hb]
    rfl

namespace Caret

/-- A text moves the caret down by its line breaks. -/
theorem top_of_afterText {n : Nat} (hexact : Extent.Exact measure.lineHeight)
    (hcaret : caret.top = Extent.times n measure.lineHeight)
    (h : caret.afterText measure t = pure caret') :
    caret'.top = Extent.times (n + t.count '\n') measure.lineHeight := by
  obtain ⟨start, w, hstart, -, rfl⟩ := afterText_eq_pure_iff.1 h
  rcases breakLines_eq_pure hstart with ⟨hn, rfl⟩ | ⟨-, rfl⟩
  · rw [hn]
    exact hcaret
  · rw [← hexact.add_times, ← hcaret]
    rfl

theorem top_of_draw {n : Nat} (hexact : Extent.Exact measure.lineHeight)
    (hcaret : caret.top = Extent.times n measure.lineHeight)
    (h : caret.draw measure seg = pure caret') :
    caret'.top = Extent.times (n + seg.breaks) measure.lineHeight := by
  unfold draw at h
  unfold Segment.breaks
  cases hkind : seg.kind with
  | text =>
    simp only [hkind] at h
    exact top_of_afterText hexact hcaret h
  | mention =>
    simp only [hkind] at h
    obtain ⟨w, -, hmove⟩ := bind_eq_pure_iff.1 h
    obtain rfl := pure_inj hmove
    exact hcaret

/-- Segments move the caret down by their line breaks. -/
theorem top_of_drawAll {n : Nat} (hexact : Extent.Exact measure.lineHeight)
    (hcaret : caret.top = Extent.times n measure.lineHeight)
    (h : caret.drawAll measure segs = pure caret') :
    caret'.top = Extent.times (n + (segs.map Segment.breaks).sum) measure.lineHeight := by
  induction segs generalizing caret n with
  | nil =>
    obtain rfl := pure_inj h
    exact hcaret
  | cons seg segs ih =>
    obtain ⟨next, hnext, hrest⟩ := bind_eq_pure_iff.1 h
    rw [List.map_cons, List.sum_cons, ← Nat.add_assoc]
    exact ih (top_of_draw hexact hcaret hnext) hrest

end Caret

/-! ## The caret of a layout -/

/-- The text before the place where a click lands, and how the whole buffer is drawn up to there. -/
theorem Layout.attempt_append [LawfulExtent α] (config : Config)
    (hm : isBodyChar config.marker = false) (name? : Text → Option Text) (measure : Measure Id α)
    (buffer : Text) (cursor : Nat) :
    ∃ before after, buffer = before ++ after ∧ units before = config.clamp buffer cursor ∧
      attempt config.marker name? measure buffer (some cursor) =
        (Caret.origin.drawAll measure (Segment.ofBuffer config.marker name? before) >>= fun caret =>
          pure ⟨Segment.ofBuffer config.marker name? buffer, some caret, false⟩) := by
  have hlegal := config.legal_clamp buffer cursor
  obtain ⟨before, after, rfl, hunits⟩ := addressable_iff.1 hlegal.1
  refine ⟨before, after, rfl, hunits, ?_⟩
  rw [← hunits] at hlegal
  rw [← Caret.place_append ((legal_append_iff hm).1 hlegal), hunits, Caret.place_clamp]
  rfl

/-- A text with the cursor at its end. -/
theorem Layout.attempt_end [LawfulExtent α] (marker : Char) (name? : Text → Option Text)
    (measure : Measure Id α) (t : Text) :
    attempt marker name? measure t (some (units t)) =
      (Caret.origin.drawAll measure (Segment.ofBuffer marker name? t) >>= fun caret =>
        pure ⟨Segment.ofBuffer marker name? t, some caret, false⟩) := by
  have hplace : Caret.place measure (t ++ []) (Segment.ofBuffer marker name? (t ++ [])) (units t) =
      _ := Caret.place_append fun hf => hf.not_released released_nil
  rw [List.append_nil] at hplace
  rw [← hplace]
  rfl

/-- **A caret depends on its own line.** Let a click at the cursor land behind some text. The layout
of the whole buffer and that of this text, with the cursor at its end, fail for the same reason or
have the same caret. If they have one, the layout of the last line of the text has a caret that
stands as far right and at the top, and with exact sums the first caret stands one line height down
for each line break in the text. -/
theorem caret_depends_on_its_line [LawfulExtent α] {config : Config}
    (hv : config.validate = .ok ()) (name? : Text → Option Text) (measure : Measure Id α)
    (buffer : Text) (cursor : Nat) :
    ∃ before after, buffer = before ++ after ∧ units before = config.clamp buffer cursor ∧
      let layout t cursor := Layout.attempt config.marker name? measure t (some cursor)
      let segments := Segment.ofBuffer config.marker name?
      let line := Caret.lastLine before
      ((∃ e, layout buffer cursor = throw e ∧ layout before (units before) = throw e) ∨
        ∃ caret, layout buffer cursor = pure ⟨segments buffer, some caret, false⟩ ∧
          layout before (units before) = pure ⟨segments before, some caret, false⟩ ∧
          layout line (units line) =
            pure ⟨segments line, some ⟨caret.left, Extent.zero⟩, false⟩ ∧
          (Extent.Exact measure.lineHeight →
            caret.top = Extent.times (before.count '\n') measure.lineHeight)) := by
  have hnewline := Config.marker_ne_newline hv
  obtain ⟨before, after, hbuffer, hunits, hwhole⟩ := Layout.attempt_append config
    (Config.marker_of_validate hv).1 name? measure buffer cursor
  refine ⟨before, after, hbuffer, hunits, ?_⟩
  intro layout segments line
  simp only [layout, hwhole, Layout.attempt_end]
  rcases throw_or_pure (Caret.origin.drawAll measure (segments before)) with
    ⟨e, hdraw⟩ | ⟨caret, hdraw⟩
  · exact .inl ⟨e, by rw [hdraw]; rfl, by rw [hdraw]; rfl⟩
  · refine .inr ⟨caret, by rw [hdraw]; rfl, by rw [hdraw]; rfl, ?_, fun hexact => ?_⟩
    · rw [Caret.left_of_drawAll hnewline hdraw]
      rfl
    · have hbreaks := (draws_ofBuffer config.marker name? before).sum_breaks hnewline
      have htop := Caret.top_of_drawAll (n := 0) hexact hexact.times_zero.symm hdraw
      rwa [hbreaks, Nat.zero_add] at htop

/-- Whole units are added exactly. -/
theorem exact_nat (height : Nat) : Extent.Exact height :=
  ⟨Nat.zero_mul _, fun a b => (Nat.add_mul a b height).symm⟩

/-- A cursor inside a mention on the second line. A click there lands behind the mention, and the
caret is as far right as it is on this line alone. -/
theorem caret_depends_on_its_line_second :
    ({} : Config).validate = .ok () ∧ Extent.Exact 20 ∧
    let measure : Measure Id Nat :=
      ⟨fun t kind => pure (t.length * if kind = .text then 8 else 10), 20⟩
    let layout (t : String) cursor :=
      Layout.attempt '@' (fun _ => none) measure t.toList (some cursor)
    let segments (t : String) := Segment.ofBuffer '@' (fun _ => none) t.toList
    layout "a\nb @bob!" 6 = pure ⟨segments "a\nb @bob!", some ⟨46, 20⟩, false⟩ ∧
    layout "b @bob" 6 = pure ⟨segments "b @bob", some ⟨46, 0⟩, false⟩ := by
  have hv : ({} : Config).validate = .ok () := by decide
  refine ⟨hv, exact_nat 20, ?_⟩
  intro measure layout segments
  obtain ⟨before, after, hbuffer, hunits, h⟩ :=
    caret_depends_on_its_line hv (fun _ => none) measure "a\nb @bob!".toList 6
  have hsplit : "a\nb @bob".toList ++ ['!'] = before ++ after := hbuffer
  obtain ⟨rfl, rfl⟩ := append_inj_of_units_eq hsplit (hunits ▸ by decide)
  have hwhole : layout "a\nb @bob!" 6 = pure ⟨segments "a\nb @bob!", some ⟨46, 20⟩, false⟩ := rfl
  rcases h with ⟨e, herror, -⟩ | ⟨caret, hcaret, -, hline, -⟩
  · exact absurd (herror.symm.trans hwhole) (throw_ne_pure _ _)
  · have heq := pure_inj (hcaret.symm.trans hwhole)
    obtain rfl : caret = ⟨46, 20⟩ := Option.some.inj (Layout.mk.inj heq).2.1
    exact ⟨hwhole, hline⟩

end Mentions.Overlay
