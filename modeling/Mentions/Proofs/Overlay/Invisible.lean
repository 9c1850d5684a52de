import Mentions.Proofs.Growth.Separate
import Mentions.Proofs.Overlay.Walk
import Mentions.Proofs.Scan.Display

/-!
# Invisible characters do not move the caret

Two cursors with nothing but invisible characters between them are drawn at the same place. They may
be in a gap that is shown, at the ends of one that is not, at the end of one mention and the start
of the next, or on both sides of a separator that a repair has put in. The walk takes other steps in
each of these cases, but it always draws the text before the cursor (`Caret.place_append`), so that
the cases need not be told apart: neither cursor is inside a mention, since invisible characters
continue no text and end none that could be continued (`IsSeparator.not_fuses_before`,
`IsSeparator.not_fuses_behind`), and at the end of a text they only lengthen the last gap, which
shows what it did (`Caret.drawAll_ofBuffer_append`).

Main statement: `layout_between_invisible`.
-/

namespace Mentions

open Text

variable {m : Char} {w : Text}

/-! ## Texts around invisible characters -/

namespace Growth

/-- What is written before a separator does not fuse with it. -/
theorem IsSeparator.not_fuses_before (hw : IsSeparator w) (l r : Text) : ¬Fuses m l (w ++ r) :=
  fun hf => hf.not_released (hw.released r)

/-- A separator does not fuse with what is written behind it. -/
theorem IsSeparator.not_fuses_behind (hz : isZeroWidth m = false) (hw : IsSeparator w)
    (l r : Text) : ¬Fuses m (l ++ w) r := by
  intro hf
  have hlast : (l ++ w).getLast? = some (w.getLast hw.ne_nil) := by
    rw [List.getLast?_append_of_ne_nil _ hw.ne_nil, List.getLast?_eq_some_getLast hw.ne_nil]
  have hvisible := hf.endsOpen.visible_of_mem_getLast? hz _ hlast
  rw [hw.chars _ (List.getLast_mem hw.ne_nil)] at hvisible
  cases hvisible

/-- A separator adds no mention to the text before it. -/
theorem IsSeparator.scan_append_eq (hz : isZeroWidth m = false) (hw : IsSeparator w) (l : Text) :
    scan m (l ++ w) = scan m l := by
  have hmarker : m ∉ w := by
    intro hmem
    rw [hw.chars m hmem] at hz
    cases hz
  have hfuses : ¬Fuses m l (w ++ []) := hw.not_fuses_before l []
  rw [List.append_nil] at hfuses
  have hnone : scan m w = [] := scanFrom_of_not_mem hmarker
  rw [scan_append hfuses, hnone, List.map_nil, List.append_nil]

end Growth

namespace Overlay

variable {α : Type} [Extent α] {measure : Measure Id α} {name? : Text → Option Text} {marker : Char}

/-! ## The caret -/

namespace Caret

/-- A separator at the end of a text is drawn as nothing. -/
theorem drawAll_ofBuffer_append [LawfulExtent α] (hz : isZeroWidth marker = false)
    (hw : Growth.IsSeparator w) (l : Text) :
    origin.drawAll measure (Segment.ofBuffer marker name? (l ++ w)) =
      origin.drawAll measure (Segment.ofBuffer marker name? l) := by
  obtain ⟨l', g, front, rfl, hsegs, -, hjoin⟩ := (draws_ofBuffer marker name? l).exists_last
  simp only [Nat.zero_add] at hsegs hjoin
  -- the last gap goes on with the separator
  have hdraws := hjoin (z := w) .last
  rw [List.append_nil, ← hw.scan_append_eq hz] at hdraws
  rw [← hdraws.eq_ofBuffer, hsegs, drawAll_append, drawAll_append]
  refine bind_congr_of_pure fun caret hcaret => ?_
  have hsum : Extent.IsSum caret.left := isSum_of_drawAll .zero hcaret
  rw [drawAll_gap hsum, drawAll_gap hsum, strip_append, strip_eq_nil_iff.2 hw.chars,
    List.append_nil]

/-- The caret is placed alike on both sides of a separator. -/
theorem place_separator [LawfulExtent α] (hz : isZeroWidth marker = false)
    (hw : Growth.IsSeparator w) (l r : Text) :
    place measure (l ++ (w ++ r)) (Segment.ofBuffer marker name? (l ++ (w ++ r))) (units l) =
      place measure (l ++ (w ++ r)) (Segment.ofBuffer marker name? (l ++ (w ++ r)))
        (units l + units w) := by
  have hbehind : place measure (l ++ w ++ r) (Segment.ofBuffer marker name? (l ++ w ++ r))
      (units (l ++ w)) = origin.drawAll measure (Segment.ofBuffer marker name? (l ++ w)) :=
    place_append (hw.not_fuses_behind hz l r)
  rw [List.append_assoc, units_append] at hbehind
  rw [place_append (hw.not_fuses_before l r), hbehind, drawAll_ofBuffer_append hz hw]

end Caret

/-- **Invisible characters do not move the caret.** If the text between two cursors is invisible,
the layout is the same for both: its segments, its caret, and whether it is degraded because the
host cannot measure a text. The marker may be any visible character. -/
theorem layout_between_invisible [LawfulExtent α] {marker : Char} (hz : isZeroWidth marker = false)
    (name? : Text → Option Text) (measure : Measure Id α) {buffer w : Text} {c c' : Nat}
    (hslice : buffer.slice? c c' = some w) (hw : ∀ x ∈ w, isZeroWidth x = true) :
    Layout.make marker name? measure buffer (some c) =
      Layout.make marker name? measure buffer (some c') := by
  obtain ⟨l, r, rfl, rfl, rfl⟩ := slice?_eq_some_iff.1 hslice
  rcases Decidable.em (w = []) with rfl | hne
  · rw [units_nil, Nat.add_zero]
  · have hsep : Growth.IsSeparator w := ⟨hne, hw⟩
    simp only [Layout.make, Layout.attempt, Caret.place_separator hz hsep l r]

/-- A cursor at the end of a mention and one at the start of the next, with a gap between them that
has no segment. -/
theorem layout_between_invisible_gap :
    isZeroWidth '@' = false ∧
    slice? "@al\u200b\u200c@bo".toList 3 5 = some "\u200b\u200c".toList ∧
    (∀ x ∈ "\u200b\u200c".toList, isZeroWidth x = true) ∧
    let measure : Measure Id Nat :=
      ⟨fun t kind => pure (t.length * if kind = .text then 8 else 10), 20⟩
    let layout cursor := Id.run (Layout.make '@' (fun _ => none) measure
      "@al\u200b\u200c@bo".toList (some cursor))
    layout 3 = layout 5 ∧
    layout 5 = ⟨[⟨.mention, "al".toList, 0, 3, some ⟨0, 3, "@al".toList⟩⟩,
      ⟨.mention, "bo".toList, 5, 8, some ⟨5, 8, "@bo".toList⟩⟩], some ⟨20, 0⟩, false⟩ := by
  have hz : isZeroWidth '@' = false := by decide
  have hslice : slice? "@al\u200b\u200c@bo".toList 3 5 = some "\u200b\u200c".toList := by decide
  have hw : ∀ x ∈ "\u200b\u200c".toList, isZeroWidth x = true := List.all_eq_true.1 (by decide)
  refine ⟨hz, hslice, hw, ?_⟩
  intro measure layout
  exact ⟨congrArg Id.run (layout_between_invisible hz (fun _ => none) measure hslice hw),
    by decide +kernel⟩

end Overlay

end Mentions
