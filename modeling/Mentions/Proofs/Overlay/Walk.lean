import Mentions.Proofs.Overlay.Caret
import Mentions.Proofs.Overlay.Join

/-!
# The walk to the caret draws the text before it

The caret is placed by a walk over the segments of the whole buffer, which reads the text of each of
them out of the buffer again. What it draws is the text before the cursor and nothing else: a
position that is in no mention splits the buffer, and the walk to it draws the segments that the
left part has as a buffer of its own (`Caret.place_append`).

For the segments that the walk has passed this is so because they show what it reads
(`Caret.afterSegments_append`). The gap around the cursor is a longer one in the whole buffer. If
nothing of it is visible before the cursor, the walk adds the width of the empty text, where the
left part has no segment at all. So adding nothing must change nothing, which is asked only of sums
of widths (`LawfulExtent`): with doubles it would be wrong of the negative zero.

Measuring is a function here: it gives a width or fails, and has no effects.
-/

namespace Mentions

/-! ## Programs that may fail and have no effects -/

section Outcomes

variable {ε β γ : Type}

/-- Such a program fails or returns. -/
theorem throw_or_pure (x : ExceptT ε Id β) : (∃ e, x = throw e) ∨ ∃ b, x = pure b := by
  cases h : Id.run x.run with
  | error e => exact .inl ⟨e, h⟩
  | ok b => exact .inr ⟨b, h⟩

theorem throw_ne_pure (e : ε) (b : β) : (throw e : ExceptT ε Id β) ≠ pure b := by
  intro h
  have hrun := congrArg (fun x => Id.run (ExceptT.run x)) h
  cases hrun

theorem pure_inj {b b' : β} (h : (pure b : ExceptT ε Id β) = pure b') : b = b' := by
  have hrun := congrArg (fun x => Id.run (ExceptT.run x)) h
  exact Except.ok.inj hrun

@[simp] theorem throw_bind (e : ε) (f : β → ExceptT ε Id γ) :
    (throw e : ExceptT ε Id β) >>= f = throw e := rfl

/-- A sequence returns if both of its parts do. -/
theorem bind_eq_pure_iff {x : ExceptT ε Id β} {f : β → ExceptT ε Id γ} {c : γ} :
    x >>= f = pure c ↔ ∃ b, x = pure b ∧ f b = pure c := by
  constructor
  · intro h
    rcases throw_or_pure x with ⟨e, rfl⟩ | ⟨b, rfl⟩
    · rw [throw_bind] at h
      exact absurd h (throw_ne_pure e c)
    · exact ⟨b, rfl, by rwa [pure_bind] at h⟩
  · rintro ⟨b, rfl, h⟩
    rw [pure_bind, h]

/-- What follows a program matters only for what it returns. -/
theorem bind_congr_of_pure {x : ExceptT ε Id β} {f g : β → ExceptT ε Id γ}
    (h : ∀ b, x = pure b → f b = g b) : x >>= f = x >>= g := by
  rcases throw_or_pure x with ⟨e, rfl⟩ | ⟨b, rfl⟩
  · rfl
  · rw [pure_bind, pure_bind, h b rfl]

end Outcomes

namespace Overlay

open Text

variable {α : Type} [Extent α]

/-! ## Sums of widths -/

/-- What is added up from nothing and from lengths that can be drawn. -/
inductive Extent.IsSum : α → Prop
  | zero : IsSum Extent.zero
  | add {x w : α} (hx : IsSum x) (hw : Extent.isValid w = true) : IsSum (Extent.add x w)

/-- Adding nothing to a sum of widths leaves it as it is. -/
class LawfulExtent (α : Type) [Extent α] : Prop where
  add_zero : ∀ {x : α}, Extent.IsSum x → Extent.add x Extent.zero = x

instance : LawfulExtent Nat := ⟨fun _ => Nat.add_zero _⟩

variable {measure : Measure Id α} {buffer t g g' l r : Text} {w : α} {c n : Nat} {seg : Segment}
  {segs rest : List Segment} {kind : SegmentKind} {caret caret' : Caret α}
  {name? : Text → Option Text} {marker : Char}

/-- The empty text is not measured, and what is measured can be drawn. -/
theorem Measure.eq_zero_or_isValid (h : measure.widthOf t kind = pure w) :
    w = Extent.zero ∨ Extent.isValid w = true := by
  rw [Measure.widthOf] at h
  split at h
  · exact .inl (pure_inj h).symm
  · obtain ⟨w', -, hw'⟩ := bind_eq_pure_iff.1 h
    split at hw'
    · next hvalid =>
      obtain rfl := pure_inj hw'
      exact .inr hvalid
    · exact absurd hw' (throw_ne_pure _ _)

/-- A width that has been measured is added to a sum of widths. -/
theorem Extent.IsSum.add_width [LawfulExtent α] {x : α} (hx : IsSum x)
    (h : measure.widthOf t kind = pure w) : IsSum (Extent.add x w) := by
  rcases Measure.eq_zero_or_isValid h with rfl | hw
  · rwa [LawfulExtent.add_zero hx]
  · exact .add hx hw

/-! ## Drawing -/

namespace Caret

/-- The caret after a segment. -/
def draw (measure : Measure Id α) (caret : Caret α) (seg : Segment) :
    ExceptT (MeasureError α) Id (Caret α) :=
  match seg.kind with
  | .text => caret.afterText measure seg.content
  | .mention => do
    let w ← measure.widthOf seg.content .mention
    pure (caret.moveRight w)

/-- The caret after some segments. -/
def drawAll (measure : Measure Id α) : Caret α → List Segment →
    ExceptT (MeasureError α) Id (Caret α)
  | caret, [] => pure caret
  | caret, seg :: segs => do
    let caret ← draw measure caret seg
    drawAll measure caret segs

theorem drawAll_append (caret : Caret α) (segs rest : List Segment) :
    caret.drawAll measure (segs ++ rest) =
      (caret.drawAll measure segs >>= fun caret => caret.drawAll measure rest) := by
  induction segs generalizing caret with
  | nil => exact (pure_bind _ _).symm
  | cons seg segs ih => simp only [List.cons_append, drawAll, bind_assoc, ih]

/-- The caret is moved to the right by one width, from the left edge if the text has line breaks. -/
theorem afterText_eq_pure_iff : caret.afterText measure t = pure caret' ↔
    ∃ start w, caret.breakLines measure (t.count '\n') = pure start ∧
      measure.widthOf (lastLine t) .text = pure w ∧ start.moveRight w = caret' := by
  rw [afterText, bind_eq_pure_iff]
  refine exists_congr fun start => ?_
  constructor
  · rintro ⟨hstart, h⟩
    obtain ⟨w, hw, hcaret⟩ := bind_eq_pure_iff.1 h
    exact ⟨w, hstart, hw, pure_inj hcaret⟩
  · rintro ⟨w, hstart, hw, rfl⟩
    exact ⟨hstart, bind_eq_pure_iff.2 ⟨w, hw, rfl⟩⟩

theorem breakLines_eq_pure (h : caret.breakLines measure n = pure caret') :
    n = 0 ∧ caret' = caret ∨
      n ≠ 0 ∧ caret' = ⟨Extent.zero, Extent.add caret.top (Extent.times n measure.lineHeight)⟩ := by
  rw [breakLines] at h
  split at h
  · next hn => exact .inl ⟨hn, (pure_inj h).symm⟩
  next hn =>
  split at h
  · exact .inr ⟨hn, (pure_inj h).symm⟩
  · exact absurd h (throw_ne_pure _ _)

/-- The place of the caret on its line is a sum of widths. -/
theorem isSum_of_draw [LawfulExtent α] (hcaret : Extent.IsSum caret.left)
    (h : caret.draw measure seg = pure caret') : Extent.IsSum caret'.left := by
  rw [draw] at h
  split at h
  · obtain ⟨start, w, hstart, hw, rfl⟩ := afterText_eq_pure_iff.1 h
    rcases breakLines_eq_pure hstart with ⟨-, rfl⟩ | ⟨-, rfl⟩
    · exact hcaret.add_width hw
    · exact Extent.IsSum.zero.add_width hw
  · obtain ⟨w, hw, hmove⟩ := bind_eq_pure_iff.1 h
    obtain rfl := pure_inj hmove
    exact hcaret.add_width hw

theorem isSum_of_drawAll [LawfulExtent α] (hcaret : Extent.IsSum caret.left)
    (h : caret.drawAll measure segs = pure caret') : Extent.IsSum caret'.left := by
  induction segs generalizing caret with
  | nil =>
    obtain rfl := pure_inj h
    exact hcaret
  | cons seg segs ih =>
    obtain ⟨next, hnext, hrest⟩ := bind_eq_pure_iff.1 h
    exact ih (isSum_of_draw hcaret hnext) hrest

/-- Nothing is drawn of the empty text. -/
theorem afterText_nil [LawfulExtent α] (hcaret : Extent.IsSum caret.left) :
    caret.afterText measure [] = pure caret := by
  refine afterText_eq_pure_iff.2 ⟨caret, Extent.zero, rfl, rfl, ?_⟩
  rw [moveRight, LawfulExtent.add_zero hcaret]

/-- A gap is drawn as its visible text, even if it has no segment. -/
theorem drawAll_gap [LawfulExtent α] (hcaret : Extent.IsSum caret.left) (pos : Nat) (g : Text) :
    caret.drawAll measure (gap pos g) = caret.afterText measure (strip g) := by
  rw [gap]
  split
  · next hg => rw [hg, afterText_nil hcaret, drawAll]
  · exact bind_pure _

end Caret

/-! ## The walk -/

/-- A segment of text shows what is visible of its range in the buffer. -/
def Segment.ShowsRange (buffer : Text) (seg : Segment) : Prop :=
  seg.kind = .text → ∃ t, buffer.slice? seg.start seg.stop = some t ∧ seg.content = strip t

theorem Draws.shows {spans : List Span} (h : Draws marker name? 0 buffer spans segs)
    (hseg : seg ∈ segs) : seg.ShowsRange buffer := by
  intro hkind
  obtain ⟨x, g, y, rfl, -, rfl⟩ := h.exists_eq_of_text hseg hkind
  refine ⟨g, ?_, rfl⟩
  rw [Nat.zero_add]
  exact slice?_append x g y

namespace Caret

/-- A segment that the cursor has passed is drawn. -/
theorem afterSegment_eq_draw (h : seg.stop ≤ c) (hseg : seg.ShowsRange buffer) :
    caret.afterSegment measure buffer c seg = some <$> caret.draw measure seg := by
  rw [afterSegment, draw, Nat.min_eq_right h, isBeyond_of_stop_le h]
  cases hkind : seg.kind with
  | text =>
    obtain ⟨t, ht, hcontent⟩ := hseg hkind
    simp only [ht, hcontent]
  | mention => simp only [if_pos, map_bind, map_pure]

/-- The walk draws the segments that the cursor has passed. -/
theorem afterSegments_append
    (hsegs : ∀ seg ∈ segs, seg.start < seg.stop ∧ seg.stop ≤ c ∧ seg.ShowsRange buffer) :
    caret.afterSegments measure buffer c (segs ++ rest) =
      (caret.drawAll measure segs >>= fun caret =>
        caret.afterSegments measure buffer c rest) := by
  induction segs generalizing caret with
  | nil => exact (pure_bind _ _).symm
  | cons seg segs ih =>
    obtain ⟨⟨hlt, hstop, hseg⟩, htail⟩ := List.forall_mem_cons.1 hsegs
    rw [List.cons_append, afterSegments_cons_of_stop_le hlt hstop,
      afterSegment_eq_draw hstop hseg, bind_map_left, drawAll, bind_assoc]
    exact bind_congr fun next => ih htail

/-- The walk draws what is visible before the cursor of the gap around it. -/
theorem afterSegments_gap [LawfulExtent α] (hcaret : Extent.IsSum caret.left)
    (hrest : ∀ seg ∈ rest, units l + units g ≤ seg.start) :
    caret.afterSegments measure (l ++ (g ++ (g' ++ r))) (units l + units g)
        (gap (units l) (g ++ g') ++ rest) =
      caret.afterText measure (strip g) := by
  by_cases hvisible : strip (g ++ g') = []
  · -- there is no segment, and nothing to be drawn
    have hg : strip g = [] := (List.append_eq_nil_iff.1 (strip_append g g' ▸ hvisible)).1
    rw [gap, if_pos hvisible, List.nil_append, afterSegments_of_le_start hrest, hg,
      afterText_nil hcaret]
  rw [gap, if_neg hvisible, List.singleton_append]
  rcases Decidable.em (g = []) with rfl | hg
  · -- the cursor is before the segment
    refine Eq.trans ?_ (afterText_nil hcaret).symm
    refine afterSegments_of_le_start ?_
    intro seg hseg
    rcases List.mem_cons.1 hseg with rfl | hseg
    · exact Nat.le_refl _
    · exact hrest seg hseg
  · have hlt : units l < units l + units g := Nat.lt_add_of_pos_right (units_pos hg)
    have hmin : min (units l + units g) (units l + units (g ++ g')) = units l + units g := by
      rw [units_append]
      omega
    rw [afterSegments_cons_of_le_start (by exact hlt) hrest, afterSegment]
    simp only [hmin, slice?_append, bind_map_left, Option.elim_some, bind_pure]

/-- **The caret is drawn behind the text before it.** At a position in no mention's interior it is
drawn where the segments of the text before that position end. -/
theorem place_append [LawfulExtent α] (hm : ¬Fuses marker l r) :
    place measure (l ++ r) (Segment.ofBuffer marker name? (l ++ r)) (units l) =
      origin.drawAll measure (Segment.ofBuffer marker name? l) := by
  obtain ⟨l', g, front, rfl, hsegs, hfront, hjoin⟩ :=
    (draws_ofBuffer marker name? l).exists_last
  simp only [Nat.zero_add] at hsegs hfront hjoin
  -- the segments of the rest, as far as they are drawn in the whole buffer
  obtain ⟨segs, hright⟩ : ∃ segs, Draws marker name? (units (l' ++ g)) r
      ((scan marker r).map (Span.shift (units (l' ++ g)))) segs := by
    have hscan := (scans_scan marker r).shift (units (l' ++ g))
    rw [Nat.zero_add] at hscan
    exact ⟨_, draws_segmentsFrom hscan⟩
  obtain ⟨g', r', rest, rfl, -, hrest, hextend⟩ := hright.exists_first
  have hdraws := hjoin (hextend (units_append l' g).symm)
  rw [← scan_append hm] at hdraws
  -- both walks draw the segments before the last gap
  have hshown : ∀ seg ∈ front, seg.ShowsRange (l' ++ g ++ (g' ++ r')) :=
    fun _ hseg => hdraws.shows (List.mem_append_left _ hseg)
  rw [place, (addressable_append _ _).floor_eq, ← hdraws.eq_ofBuffer, hsegs, drawAll_append]
  rw [afterSegments_append fun seg hseg => ?_]
  · refine bind_congr_of_pure fun caret hcaret => ?_
    have hsum : Extent.IsSum caret.left := isSum_of_drawAll .zero hcaret
    rw [drawAll_gap hsum, List.append_assoc, units_append]
    refine afterSegments_gap hsum fun seg hseg => ?_
    have := hrest seg hseg
    rw [units_append] at this
    omega
  · obtain ⟨hlt, hstop⟩ := hfront seg hseg
    refine ⟨hlt, ?_, hshown seg hseg⟩
    rw [units_append]
    omega

end Caret

end Overlay

end Mentions
