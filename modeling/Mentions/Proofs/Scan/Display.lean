import Mathlib.Data.List.Forall2
import Mentions.Proofs.Scan.Append

/-!
# Scanning a text as it is displayed

A text is displayed without its invisible characters. That leaves the mentions as they are, each
one with the same text and earlier by the invisible characters before it (`Span.ShownAs`), unless
one of the runs of invisible characters *holds a mention back* (`HoldsBack`): the text before it
ends in a marker with nothing but body characters behind it, and a body character follows it.

The proof takes a text apart at its first invisible character. No body reaches across it, so the
mentions are those of the two sides (`scan_append_cons`). Once it is gone, the text before it fuses
with what is displayed of the rest only if a body character is the first that is displayed, and then
the run up to this character holds a mention back (`not_fuses_strip`). So the mentions are those of
the two sides again, and the rest has fewer invisible characters.

Main statement: `stripping_keeps_mentions`.
-/

namespace Mentions

open Text

variable {m c : Char} {l r x t z : Text} {s s' : Span}

/-! ## Runs of invisible characters -/

/-- Between the two texts stands a run of invisible characters, and neither text goes on with it. -/
structure InvisibleRun (l z r : Text) : Prop where
  ne_nil : z ≠ []
  invisible : ∀ c ∈ z, isZeroWidth c = true
  visible_left : ∀ c ∈ l.getLast?, isZeroWidth c = false
  visible_right : ∀ c ∈ r.head?, isZeroWidth c = false

instance (l z r : Text) : Decidable (InvisibleRun l z r) :=
  decidable_of_iff (z ≠ [] ∧ z.all isZeroWidth = true ∧ l.getLast?.any isZeroWidth = false ∧
      r.head?.any isZeroWidth = false) <| by
    rw [List.all_eq_true, Option.any_eq_false, Option.any_eq_false]
    constructor
    · rintro ⟨hne, hall, hl, hr⟩
      exact ⟨hne, hall, hl, hr⟩
    · intro h
      exact ⟨h.ne_nil, h.invisible, h.visible_left, h.visible_right⟩

/-- A run of invisible characters follows a marker with nothing but body characters behind it, and
a body character follows the run. -/
def HoldsBack (m : Char) (t : Text) : Prop :=
  ∃ l t', t = l ++ t' ∧ EndsOpen m l ∧
    ∃ z r, t' = z ++ r ∧ InvisibleRun l z r ∧ StartsWithBodyChar r

/-- The parts of a text are found by the length of the first one. -/
theorem exists_append_iff {P : Text → Text → Prop} :
    (∃ l r, t = l ++ r ∧ P l r) ↔ ∃ n ∈ List.range (t.length + 1), P (t.take n) (t.drop n) := by
  constructor
  · rintro ⟨l, r, rfl, h⟩
    refine ⟨l.length, List.mem_range.2 ?_, ?_⟩
    · rw [List.length_append]
      omega
    · rwa [List.take_left, List.drop_left]
  · rintro ⟨n, -, h⟩
    exact ⟨_, _, (List.take_append_drop n t).symm, h⟩

instance (m : Char) (t : Text) : Decidable (HoldsBack m t) :=
  have (l t' : Text) :
      Decidable (∃ z r, t' = z ++ r ∧ InvisibleRun l z r ∧ StartsWithBodyChar r) :=
    decidable_of_iff _ exists_append_iff.symm
  decidable_of_iff _ exists_append_iff.symm

/-- A text that ends open ends in a visible character. -/
theorem EndsOpen.visible_of_mem_getLast? (hz : isZeroWidth m = false) (h : EndsOpen m l) :
    ∀ c ∈ l.getLast?, isZeroWidth c = false := by
  obtain ⟨l₀, w, rfl, hw⟩ := h
  intro c hc
  rw [List.getLast?_append_of_ne_nil _ (List.cons_ne_nil m w)] at hc
  rcases List.mem_cons.1 (List.mem_of_getLast? hc) with rfl | hc
  · exact hz
  · exact isZeroWidth_of_isBodyChar (hw c hc)

/-- Invisible characters between a text that ends open and a body character hold a mention back. -/
theorem holdsBack_of_endsOpen (hz : isZeroWidth m = false) (hl : EndsOpen m l) (hne : z ≠ [])
    (hall : ∀ c ∈ z, isZeroWidth c = true) (hr : StartsWithBodyChar r) :
    HoldsBack m (l ++ (z ++ r)) := by
  refine ⟨l, z ++ r, rfl, hl, z, r, rfl, ⟨hne, hall, hl.visible_of_mem_getLast? hz, ?_⟩, hr⟩
  obtain ⟨c, t, rfl, hc⟩ := hr
  intro d hd
  obtain rfl := Option.some.inj hd
  exact isZeroWidth_of_isBodyChar hc

/-- What holds a mention back in a text does so with another text before it. -/
theorem HoldsBack.append_left (hz : isZeroWidth m = false) (h : HoldsBack m t) (x : Text) :
    HoldsBack m (x ++ t) := by
  obtain ⟨l, t', rfl, hl, z, r, rfl, ⟨hne, hall, -⟩, hr⟩ := h
  rw [← List.append_assoc]
  exact holdsBack_of_endsOpen hz (hl.append_left x) hne hall hr

/-! ## The first invisible character -/

/-- A text is visible as it stands, or has a first invisible character. -/
theorem exists_invisible (t : Text) :
    (∀ c ∈ t, isZeroWidth c = false) ∨
      ∃ x c r, t = x ++ c :: r ∧ (∀ d ∈ x, isZeroWidth d = false) ∧ isZeroWidth c = true := by
  induction t with
  | nil => exact .inl nofun
  | cons c t ih =>
    cases hc : isZeroWidth c with
    | true => exact .inr ⟨[], c, t, rfl, nofun, hc⟩
    | false =>
      rcases ih with ht | ⟨x, d, r, rfl, hx, hd⟩
      · exact .inl (List.forall_mem_cons.2 ⟨hc, ht⟩)
      · exact .inr ⟨c :: x, d, r, rfl, List.forall_mem_cons.2 ⟨hc, hx⟩, hd⟩

/-- Without the invisible character between them, two texts are displayed as they stand on either
side. -/
theorem strip_append_cons (hx : ∀ d ∈ x, isZeroWidth d = false) (hc : isZeroWidth c = true) :
    strip (x ++ c :: r) = x ++ strip r := by
  rw [strip_append, strip_eq_self_iff.2 hx, ← List.singleton_append, strip_append,
    strip_eq_nil_iff.2 (List.forall_mem_singleton.2 hc), List.nil_append]

/-- The two sides of an invisible character fuse when they are displayed only if a mention has been
held back. -/
theorem not_fuses_strip (hz : isZeroWidth m = false) (hc : isZeroWidth c = true)
    (h : ¬HoldsBack m (x ++ c :: r)) : ¬Fuses m x (strip r) := by
  intro hf
  obtain ⟨d, u, hstrip, hd⟩ := startsWithBodyChar_of_not_released hf.not_released
  obtain ⟨z, r', rfl, hall, -, -⟩ := List.filter_eq_cons_iff.1 hstrip
  refine h (holdsBack_of_endsOpen (z := c :: z) (r := d :: r') hz hf.endsOpen
    (List.cons_ne_nil c z) (List.forall_mem_cons.2 ⟨hc, ?_⟩) ⟨d, r', rfl, hd⟩)
  intro e he
  simpa using hall e he

/-! ## Mentions as they are displayed -/

/-- The second span is the first one as it is displayed: it starts earlier by the number of
invisible characters in the text before it. -/
structure Span.ShownAs (t : Text) (s s' : Span) : Prop where
  text_eq : s'.text = s.text
  start_eq : ∃ l r, t = l ++ r ∧ units l = s.start ∧ s'.start + l.countP isZeroWidth = s.start

/-- An invisible character takes one unit. -/
theorem unitsOf_of_isZeroWidth (h : isZeroWidth c = true) : unitsOf c = 1 := by
  simp only [isZeroWidth, Bool.or_eq_true, decide_eq_true_eq] at h
  rcases h with rfl | rfl <;> decide

theorem countP_isZeroWidth_eq_zero (hx : ∀ d ∈ x, isZeroWidth d = false) :
    x.countP isZeroWidth = 0 := by
  refine List.countP_eq_zero.2 fun d hd => ?_
  rw [hx d hd]
  exact Bool.false_ne_true

/-- A mention that nothing invisible stands before is displayed where it is. -/
theorem Span.shownAs_self (hx : ∀ d ∈ x, isZeroWidth d = false) (hs : s ∈ scan m x) (r : Text) :
    s.ShownAs (x ++ r) s := by
  obtain ⟨l, y, rfl, hl⟩ := addressable_iff.1 (s.addressable_start hs)
  refine ⟨rfl, l, y ++ r, List.append_assoc _ _ _, hl, ?_⟩
  rw [countP_isZeroWidth_eq_zero fun d hd => hx d (List.mem_append_left _ hd), Nat.add_zero]

/-- Behind the first invisible character of a text, a mention is displayed one unit earlier. -/
theorem Span.ShownAs.shift (hx : ∀ d ∈ x, isZeroWidth d = false) (hc : isZeroWidth c = true)
    (h : s.ShownAs r s') :
    (s.shift (units x + unitsOf c)).ShownAs (x ++ c :: r) (s'.shift (units x)) := by
  obtain ⟨htext, l, y, rfl, hl, hstart⟩ := h
  have hone := unitsOf_of_isZeroWidth hc
  refine ⟨htext, x ++ c :: l, y, by simp, ?_, ?_⟩
  · rw [units_append, units_cons, hl, Span.shift_start]
    omega
  · rw [List.countP_append, List.countP_cons_of_pos hc, countP_isZeroWidth_eq_zero hx,
      Span.shift_start, Span.shift_start]
    omega

/-- **Stripping changes no mention unless a separator was holding one back.** If no run of invisible
characters stands between a marker with nothing but body characters behind it and a body character,
the text without its invisible characters has the same mentions in the same order, each one earlier
by the number of invisible characters before it. -/
theorem stripping_keeps_mentions (m : Char) (buffer : Text) (hz : isZeroWidth m = false)
    (h : ¬HoldsBack m buffer) :
    List.Forall₂ (Span.ShownAs buffer) (scan m buffer) (scan m (strip buffer)) := by
  -- the rest behind the first invisible character is shorter, so the induction is on the length
  induction hn : buffer.length using Nat.strongRecOn generalizing buffer with
  | ind n ih =>
    subst hn
    rcases exists_invisible buffer with hvisible | ⟨x, c, r, rfl, hx, hc⟩
    · rw [strip_eq_self_iff.2 hvisible, List.forall₂_same]
      intro s hs
      simpa using s.shownAs_self hvisible hs []
    · have hcm : c ≠ m := by
        rintro rfl
        rw [hc] at hz
        cases hz
      have hrest : ¬HoldsBack m r := by
        intro hr
        rw [← List.singleton_append, ← List.append_assoc] at h
        exact h (hr.append_left hz _)
      have hlt : r.length < (x ++ c :: r).length := by
        rw [List.length_append, List.length_cons]
        omega
      rw [strip_append_cons hx hc, scan_append_cons (isBodyChar_of_isZeroWidth hc) hcm,
        scan_append (not_fuses_strip hz hc h)]
      refine List.rel_append ?_ ?_
      · exact List.forall₂_same.2 fun s hs => s.shownAs_self hx hs _
      · rw [List.forall₂_map_left_iff, List.forall₂_map_right_iff]
        exact (ih _ hlt r hrest rfl).imp fun s s' hs => hs.shift hx hc

/-- Separators within a word, behind a mention, behind a lone marker, before a mention and at the
end: none of them holds a mention back. -/
theorem stripping_keeps_mentions_between :
    isZeroWidth '@' = false ∧
    ¬HoldsBack '@' "x\u200by @al\u200b\u200c, @\u200c \u200b@bo\u200b".toList ∧
    strip "x\u200by @al\u200b\u200c, @\u200c \u200b@bo\u200b".toList = "xy @al, @ @bo".toList ∧
    List.Forall₂ (Span.ShownAs "x\u200by @al\u200b\u200c, @\u200c \u200b@bo\u200b".toList)
      [⟨4, 7, "@al".toList⟩, ⟨15, 18, "@bo".toList⟩]
      [⟨3, 6, "@al".toList⟩, ⟨10, 13, "@bo".toList⟩] := by
  have hz : isZeroWidth '@' = false := by decide
  have hnone : ¬HoldsBack '@' "x\u200by @al\u200b\u200c, @\u200c \u200b@bo\u200b".toList := by
    decide +kernel
  have hstrip : strip "x\u200by @al\u200b\u200c, @\u200c \u200b@bo\u200b".toList =
      "xy @al, @ @bo".toList := by decide
  have hscan : scan '@' "x\u200by @al\u200b\u200c, @\u200c \u200b@bo\u200b".toList =
      [⟨4, 7, "@al".toList⟩, ⟨15, 18, "@bo".toList⟩] := by decide
  have hscan' : scan '@' "xy @al, @ @bo".toList =
      [⟨3, 6, "@al".toList⟩, ⟨10, 13, "@bo".toList⟩] := by decide
  have h := stripping_keeps_mentions '@' _ hz hnone
  rw [hstrip, hscan, hscan'] at h
  exact ⟨hz, hnone, hstrip, h⟩

end Mentions
