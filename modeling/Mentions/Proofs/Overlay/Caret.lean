import Mentions.Overlay.Layout
import Mentions.Proofs.Overlay.Segments
import Mentions.Proofs.Scan.Position

/-!
# The caret stands where a click lands

To place the caret, the overlay walks over its segments up to the cursor; a click looks up the
mention around the cursor. That both pick the same end of a mention is shown on the walk. It takes
the same steps for two cursors over the segments that both have passed
(`Caret.afterSegments_append_congr`), stops at those that the cursor has not reached
(`Caret.afterSegments_of_le_start`), and draws a mention around the cursor as for a cursor at its
nearer end (`Caret.afterSegments_nearerEnd`). The rules for segments (`Draws`) say that every
mention has such segments before and behind it.

Main statement: the layout for a cursor is the layout for the position where a click there lands
(`layout_at_clamp`).
-/

namespace Mentions.Overlay

open Text

variable {m : Type → Type} [Monad m] {α : Type} [Extent α] {measure : Measure m α} {buffer : Text}
  {c c' pos : Nat} {s : Segment} {segs rest : List Segment} {span : Span} {spans : List Span}
  {name? : Text → Option Text} {marker : Char}

namespace Caret

variable {caret : Caret α}

/-! ## The walk -/

/-- The caret is drawn after a segment that the cursor has passed. -/
theorem isBeyond_of_stop_le (h : s.stop ≤ c) : isBeyond c s = true := by
  rw [isBeyond]
  split
  · exact if_neg (Nat.not_lt.2 h)
  · rfl

/-- A segment that two cursors have passed is drawn alike for both. -/
theorem afterSegment_congr (h : s.stop ≤ c) (h' : s.stop ≤ c') :
    caret.afterSegment measure buffer c s = caret.afterSegment measure buffer c' s := by
  rw [afterSegment, afterSegment, Nat.min_eq_right h, Nat.min_eq_right h', isBeyond_of_stop_le h,
    isBeyond_of_stop_le h']

/-- The walk stops at the segments that the cursor has not reached. -/
theorem afterSegments_of_le_start (h : ∀ s ∈ segs, c ≤ s.start) :
    caret.afterSegments measure buffer c segs = pure caret := by
  cases segs with
  | nil => rfl
  | cons s segs => exact if_pos (h s List.mem_cons_self)

/-- The walk goes on behind a segment that the cursor has passed. -/
theorem afterSegments_cons_of_stop_le (hlt : s.start < s.stop) (h : s.stop ≤ c) :
    caret.afterSegments measure buffer c (s :: rest) =
      (caret.afterSegment measure buffer c s >>= fun next? =>
        next?.elim (pure caret) fun next => next.afterSegments measure buffer c rest) := by
  rw [afterSegments, if_neg (by omega)]
  refine bind_congr fun next? => ?_
  cases next? with
  | none => rfl
  | some next => exact if_neg (Nat.not_lt.2 h)

/-- The walk ends with a segment if the cursor has not reached the next one. -/
theorem afterSegments_cons_of_le_start (hlt : s.start < c) (hrest : ∀ s ∈ rest, c ≤ s.start) :
    caret.afterSegments measure buffer c (s :: rest) =
      (caret.afterSegment measure buffer c s >>= fun next? =>
        next?.elim (pure caret) fun next => pure next) := by
  rw [afterSegments, if_neg (by omega)]
  refine bind_congr fun next? => ?_
  cases next? with
  | none => rfl
  | some next =>
    simp only [Option.elim_some]
    rw [afterSegments_of_le_start hrest, ite_self]

/-- The walk is the same for two cursors if it is so behind segments that both have passed. -/
theorem afterSegments_append_congr
    (hsegs : ∀ s ∈ segs, s.start < s.stop ∧ s.stop ≤ c ∧ s.stop ≤ c')
    (hrest : ∀ caret : Caret α, caret.afterSegments measure buffer c rest =
      caret.afterSegments measure buffer c' rest) :
    caret.afterSegments measure buffer c (segs ++ rest) =
      caret.afterSegments measure buffer c' (segs ++ rest) := by
  induction segs generalizing caret with
  | nil => exact hrest caret
  | cons s segs ih =>
    obtain ⟨hlt, h, h'⟩ := hsegs s List.mem_cons_self
    have hnext (next : Caret α) : next.afterSegments measure buffer c (segs ++ rest) =
        next.afterSegments measure buffer c' (segs ++ rest) :=
      ih fun s hs => hsegs s (List.mem_cons_of_mem _ hs)
    rw [List.cons_append, afterSegments_cons_of_stop_le hlt h,
      afterSegments_cons_of_stop_le hlt h', afterSegment_congr h h']
    simp only [hnext]

/-! ## A mention around the cursor -/

/-- A mention is drawn as a whole or not at all. -/
theorem afterSegment_mention : caret.afterSegment measure buffer c (mention name? span) =
    if isBeyond c (mention name? span) then do
      let w ← measure.widthOf (mention name? span).content .mention
      pure (some (caret.moveRight w))
    else pure (some caret) := rfl

/-- The caret is drawn after a mention around the cursor if the nearer end is its right one. -/
theorem isBeyond_mention (h : c < span.stop) :
    isBeyond c (mention name? span) = decide (span.nearerEnd c = span.stop) := by
  simp only [isBeyond, mention]
  exact if_pos h

/-- A mention around the cursor is drawn as for a cursor at its nearer end. -/
theorem afterSegments_nearerEnd [LawfulMonad m] (hi : span.interior pos = true)
    (hrest : ∀ s ∈ rest, span.stop ≤ s.start) :
    caret.afterSegments measure buffer (span.nearerEnd pos) (mention name? span :: rest) =
      caret.afterSegments measure buffer pos (mention name? span :: rest) := by
  obtain ⟨hstart, hstop⟩ := Span.interior_iff.1 hi
  have hpos : ∀ s ∈ rest, pos ≤ s.start := fun s hs =>
    Nat.le_trans (Nat.le_of_lt hstop) (hrest s hs)
  rw [afterSegments_cons_of_le_start (s := mention name? span) hstart hpos]
  rcases span.nearerEnd_eq pos with hend | hend
  · -- the walk to the start stops there, and the one inside draws nothing
    have hbeyond : isBeyond pos (mention name? span) = false := by
      rw [isBeyond_mention hstop]
      exact decide_eq_false (by omega)
    have hle : ∀ s ∈ mention name? span :: rest, span.start ≤ s.start := by
      intro s hs
      rcases List.mem_cons.1 hs with rfl | hs
      · exact Nat.le_refl _
      · have := hrest s hs
        omega
    rw [hend, afterSegments_of_le_start hle, afterSegment_mention, hbeyond, if_neg nofun, pure_bind,
      Option.elim_some]
  · -- both walks draw the mention and end there
    have hbeyond : isBeyond pos (mention name? span) = true := by
      rw [isBeyond_mention hstop]
      exact decide_eq_true hend
    have hbeyond' : isBeyond span.stop (mention name? span) = true :=
      isBeyond_of_stop_le (Nat.le_refl _)
    rw [hend, afterSegments_cons_of_le_start (s := mention name? span)
      (Nat.lt_trans hstart hstop) hrest, afterSegment_mention, afterSegment_mention, hbeyond,
      hbeyond']

end Caret

/-- The caret is drawn alike for a cursor inside a mention and for one at its nearer end. -/
theorem Draws.afterSegments_nearerEnd [LawfulMonad m] {start : Nat} {t : Text}
    (h : Draws marker name? start t spans segs) (hspan : span ∈ spans)
    (hi : span.interior pos = true) (caret : Caret α) :
    caret.afterSegments measure buffer (span.nearerEnd pos) segs =
      caret.afterSegments measure buffer pos segs := by
  have hmem : mention name? span ∈ segs := by
    refine List.mem_of_mem_filter (p := fun s => s.kind = .mention) ?_
    rw [h.filter_mention]
    exact List.mem_map_of_mem hspan
  obtain ⟨front, rest, rfl⟩ := List.append_of_mem hmem
  obtain ⟨-, hmention, hfront⟩ := List.pairwise_append.1 h.pairwise
  have hrest := (List.pairwise_cons.1 hmention).1
  refine Caret.afterSegments_append_congr ?_ fun caret => caret.afterSegments_nearerEnd hi hrest
  intro s hs
  have hlt := (h.bounds (List.mem_append_left _ hs)).2
  have hstop : s.stop ≤ span.start := hfront s hs _ List.mem_cons_self
  obtain ⟨hpos, hpos'⟩ := Span.interior_iff.1 hi
  refine ⟨hlt, ?_, by omega⟩
  rcases span.nearerEnd_eq pos with hend | hend <;> omega

/-! ## Clicks -/

/-- The caret is placed where a click lands. -/
theorem Caret.place_clamp [LawfulMonad m] (config : Config) (name? : Text → Option Text)
    (measure : Measure m α) (buffer : Text) (cursor : Nat) :
    place measure buffer (Segment.ofBuffer config.marker name? buffer)
        (config.clamp buffer cursor) =
      place measure buffer (Segment.ofBuffer config.marker name? buffer) cursor := by
  rw [place, place, (config.legal_clamp buffer cursor).1.floor_eq]
  rcases config.clamp_cases buffer cursor with ⟨-, heq⟩ | ⟨span, hspan, hi, heq⟩
  · rw [heq]
  · rw [heq]
    exact (draws_ofBuffer config.marker name? buffer).afterSegments_nearerEnd hspan hi origin

/-- **The caret stands where a click lands.** For every cursor, one beyond the end of the buffer,
between the halves of a character or inside a mention included, the layout is the one for the
position where a click there lands: its segments, its caret, and whether it is degraded because the
host cannot measure a text. -/
theorem layout_at_clamp [LawfulMonad m] (config : Config) (name? : Text → Option Text)
    (measure : Measure m α) (buffer : Text) (cursor : Nat) :
    Layout.make config.marker name? measure buffer (some cursor) =
      Layout.make config.marker name? measure buffer (some (config.clamp buffer cursor)) := by
  simp only [Layout.make, Layout.attempt, Caret.place_clamp]

/-- Lengths in whole units. -/
instance : Extent Nat where
  zero := 0
  add := (· + ·)
  times := (· * ·)
  isValid _ := true

/-- A cursor in the middle of a mention on the second line is drawn behind the mention. -/
theorem layout_at_clamp_middle :
    (({} : Config).clamp "a\n@bob".toList 4 = 6) ∧
    Id.run (Layout.make '@' (fun _ => none)
      ⟨fun t kind => pure (t.length * if kind = .text then 8 else 10), 20⟩
      "a\n@bob".toList (some 4)) =
      (⟨[⟨.text, "a\n".toList, 0, 2, none⟩,
          ⟨.mention, "bob".toList, 2, 6, some ⟨2, 6, "@bob".toList⟩⟩],
        some ⟨30, 20⟩, false⟩ : Layout Nat) := by
  refine ⟨by decide, ?_⟩
  refine (congrArg Id.run (layout_at_clamp {} (fun _ => none) _ _ 4)).trans ?_
  decide +kernel

end Mentions.Overlay
