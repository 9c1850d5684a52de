import Mentions.Editing
import Mentions.Proofs.Scan.Spans

/-!
# Where a cursor may stand

A position is `Legal` if it addresses a place of the buffer and is in the interior of no mention.
The ends of the text and of every mention are legal (`legal_start`, `legal_stop`), and so are both
sides of a character that can stand in no mention (`legal_before`, `legal_after`); for a
configuration that is accepted the line feed is such a character.

The look-ups of a span by position are read off here once: each finds a span with what it looks for,
or says that there is none.
-/

namespace Mentions

open Text

variable {m c : Char} {l r t : Text} {s s' : Span} {spans : List Span} {u : Nat}

/-! ## Looking up a span -/

namespace Span

theorem interior_iff : s.interior u = true ↔ s.start < u ∧ u < s.stop := by
  simp [interior]

theorem interior_eq_false_iff : s.interior u = false ↔ u ≤ s.start ∨ s.stop ≤ u := by
  rw [← Bool.not_eq_true, interior_iff]
  omega

theorem mem_of_around?_eq_some (h : around? spans u = some s) :
    s ∈ spans ∧ s.start < u ∧ u < s.stop := by
  rw [around?] at h
  have hi : s.interior u = true := by simpa using List.find?_some h
  exact ⟨List.mem_of_find?_eq_some h, interior_iff.1 hi⟩

theorem around?_eq_none_iff : around? spans u = none ↔ ∀ s ∈ spans, s.interior u = false := by
  rw [around?, List.find?_eq_none]
  simp only [Bool.not_eq_true]

theorem mem_of_startingAt?_eq_some (h : startingAt? spans u = some s) :
    s ∈ spans ∧ s.start = u :=
  ⟨List.mem_of_find?_eq_some h, by simpa using List.find?_some h⟩

theorem startingAt?_eq_none_iff : startingAt? spans u = none ↔ ∀ s ∈ spans, s.start ≠ u := by
  simp [startingAt?]

theorem mem_of_endingAt?_eq_some (h : endingAt? spans u = some s) : s ∈ spans ∧ s.stop = u :=
  ⟨List.mem_of_find?_eq_some h, by simpa using List.find?_some h⟩

theorem endingAt?_eq_none_iff : endingAt? spans u = none ↔ ∀ s ∈ spans, s.stop ≠ u := by
  simp [endingAt?]

end Span

/-! ## Legal positions -/

/-- A cursor may stand at a place of the buffer that is in no mention's interior. -/
def Legal (m : Char) (buffer : Text) (u : Nat) : Prop :=
  Addressable buffer u ∧ ∀ s ∈ scan m buffer, s.interior u = false

instance (m : Char) (buffer : Text) (u : Nat) : Decidable (Legal m buffer u) :=
  inferInstanceAs (Decidable (_ ∧ _))

/-- A place of the buffer is legal unless some mention is around it. -/
theorem legal_of_forall (hu : Addressable t u)
    (h : ∀ s ∈ scan m t, s.start < u → u < s.stop → False) : Legal m t u := by
  refine ⟨hu, ?_⟩
  intro s hs
  rw [Bool.eq_false_iff]
  intro hi
  obtain ⟨h1, h2⟩ := Span.interior_iff.1 hi
  exact h s hs h1 h2

theorem legal_of_around?_eq_none (hu : Addressable t u)
    (h : Span.around? (scan m t) u = none) : Legal m t u :=
  ⟨hu, Span.around?_eq_none_iff.1 h⟩

/-- A legal position is on one side of every mention. -/
theorem Legal.outside (h : Legal m t u) (hs : s ∈ scan m t) : u ≤ s.start ∨ s.stop ≤ u :=
  Span.interior_eq_false_iff.1 (h.2 s hs)

/-- Neither end of a mention is in an interior. -/
theorem legal_ends (hs : s ∈ scan m t) : Legal m t s.start ∧ Legal m t s.stop := by
  have key : ∀ s' ∈ scan m t, s'.interior s.start = false ∧ s'.interior s.stop = false := by
    intro s' hs'
    rw [Span.interior_eq_false_iff, Span.interior_eq_false_iff]
    have h := s.start_lt_stop hs
    rcases Decidable.em (s = s') with rfl | hne
    · omega
    · rcases Span.apart_of_ne hs hs' hne with h' | h' <;> omega
  exact ⟨⟨s.addressable_start hs, fun s' hs' => (key s' hs').1⟩,
    ⟨s.addressable_stop hs, fun s' hs' => (key s' hs').2⟩⟩

theorem legal_start (hs : s ∈ scan m t) : Legal m t s.start := (legal_ends hs).1

theorem legal_stop (hs : s ∈ scan m t) : Legal m t s.stop := (legal_ends hs).2

/-- A mention is around each position in its interior. -/
theorem Span.around?_of_interior (hs : s ∈ scan m t) (hu : s.interior u = true) :
    around? (scan m t) u = some s := by
  obtain ⟨h1, h2⟩ := interior_iff.1 hu
  cases h : around? (scan m t) u with
  | none =>
    rw [around?_eq_none_iff.1 h s hs] at hu
    cases hu
  | some s' =>
    obtain ⟨hs', h1', h2'⟩ := mem_of_around?_eq_some h
    refine congrArg some (Decidable.byContradiction fun hne => ?_)
    rcases apart_of_ne hs' hs hne with h' | h' <;> omega

theorem Span.startingAt?_start (hs : s ∈ scan m t) :
    startingAt? (scan m t) s.start = some s := by
  cases h : startingAt? (scan m t) s.start with
  | none => exact absurd rfl (startingAt?_eq_none_iff.1 h s hs)
  | some s' =>
    obtain ⟨hs', heq⟩ := mem_of_startingAt?_eq_some h
    exact congrArg some (eq_of_start_eq hs' hs heq)

theorem Span.endingAt?_stop (hs : s ∈ scan m t) : endingAt? (scan m t) s.stop = some s := by
  cases h : endingAt? (scan m t) s.stop with
  | none => exact absurd rfl (endingAt?_eq_none_iff.1 h s hs)
  | some s' =>
    obtain ⟨hs', heq⟩ := mem_of_endingAt?_eq_some h
    have h1 := s.start_lt_stop hs
    have h2 := s'.start_lt_stop hs'
    refine congrArg some (Decidable.byContradiction fun hne => ?_)
    rcases apart_of_ne hs' hs hne with h' | h' <;> omega

/-- Two spans that end at the same offset are the same. -/
theorem eq_of_stop_eq (hs : s ∈ scan m t) (hs' : s' ∈ scan m t) (h : s.stop = s'.stop) :
    s = s' := by
  have hend := s.endingAt?_stop hs
  rw [h, s'.endingAt?_stop hs'] at hend
  exact (Option.some.inj hend).symm

/-- Of the mentions that pass a test, the first one ends before the others start. -/
theorem Span.stop_le_of_find? {p : Span → Bool} (h : (scan m t).find? p = some s)
    (hs' : s' ∈ scan m t) (hp : p s' = true) : s' = s ∨ s.stop ≤ s'.start := by
  obtain ⟨-, front, rest, hsplit, hfront⟩ := List.find?_eq_some_iff_append.1 h
  have hpair := scan_pairwise m t
  rw [hsplit] at hs' hpair
  rcases List.mem_append.1 hs' with hs' | hs'
  · have hnot := hfront s' hs'
    rw [hp] at hnot
    cases hnot
  rcases List.mem_cons.1 hs' with rfl | hs'
  · exact .inl rfl
  · have hrest := (List.pairwise_append.1 hpair).2.1
    exact .inr ((List.pairwise_cons.1 hrest).1 s' hs')

theorem Legal.around?_eq_none (h : Legal m t u) : Span.around? (scan m t) u = none :=
  Span.around?_eq_none_iff.2 h.2

@[simp] theorem legal_zero (m : Char) (t : Text) : Legal m t 0 :=
  ⟨addressable_zero t, fun _ _ => Span.interior_eq_false_iff.2 (.inl (Nat.zero_le _))⟩

@[simp] theorem legal_units (m : Char) (t : Text) : Legal m t (units t) :=
  ⟨addressable_units t,
    fun s hs => Span.interior_eq_false_iff.2 (.inr (s.addressable_stop hs).le)⟩

/-- A character of the buffer between the ends of a span is a character of its text. -/
theorem Span.exists_text_eq (hs : s ∈ scan m (l ++ c :: r)) (h1 : s.start ≤ units l)
    (h2 : units l < s.stop) : ∃ x y, s.text = x ++ c :: y ∧ s.start + units x = units l := by
  obtain ⟨l', b, r', ht, -, -, rfl⟩ := exists_of_mem_scan hs
  obtain ⟨x, rfl, hx⟩ := append_of_le ht.symm h1
  have hin : units x < units (m :: b) := by
    simp only [units_append, units_cons] at h2 ⊢
    omega
  have hsplit : x ++ c :: r = (m :: b) ++ r' := hx.symm
  obtain ⟨d, y, hy, hd⟩ := append_of_lt hsplit hin
  obtain ⟨rfl, -⟩ := List.cons.inj hd
  exact ⟨x, y, hy, (units_append _ _).symm⟩

/-- Only body characters stand behind the marker of a span. -/
theorem Span.isBodyChar_of_lt (hs : s ∈ scan m (l ++ c :: r)) (h1 : s.start < units l)
    (h2 : units l < s.stop) : isBodyChar c = true := by
  obtain ⟨x, y, hxy, hu⟩ := s.exists_text_eq hs (Nat.le_of_lt h1) h2
  obtain ⟨-, b, hb, hbody⟩ := s.slice?_eq_text hs
  cases x with
  | nil =>
    rw [units_nil] at hu
    omega
  | cons d x =>
    obtain ⟨-, rfl⟩ := List.cons.inj (hb.symm.trans hxy)
    exact hbody.chars c (by simp)

/-- A position before a character that is no body character is legal. -/
theorem legal_before (hc : isBodyChar c = false) : Legal m (l ++ c :: r) (units l) := by
  refine legal_of_forall (addressable_append _ _) ?_
  intro s hs h1 h2
  rw [s.isBodyChar_of_lt hs h1 h2] at hc
  cases hc

/-- A position after a character that is neither a body character nor the marker is legal. -/
theorem legal_after (hc : isBodyChar c = false) (hm : c ≠ m) :
    Legal m (l ++ c :: r) (units l + unitsOf c) := by
  have ha : Addressable (l ++ c :: r) (units l + unitsOf c) := by
    simpa using addressable_append (l ++ [c]) r
  refine legal_of_forall ha ?_
  intro s hs h1 h2
  have h3 := (s.addressable_start hs).le_of_lt_add h1
  obtain ⟨x, y, hxy, hu⟩ := s.exists_text_eq hs h3 (by omega)
  obtain ⟨-, b, hb, hbody⟩ := s.slice?_eq_text hs
  cases x with
  | nil => exact hm (List.cons.inj (hxy.symm.trans hb)).1
  | cons d x =>
    obtain ⟨-, rfl⟩ := List.cons.inj (hb.symm.trans hxy)
    rw [hbody.chars c (by simp)] at hc
    cases hc

/-! ## Next to a mention -/

/-- Stepping back over a character leads into a mention only if that mention ends at the position
or is around it. -/
theorem legal_step_back (h : ∀ s ∈ scan m (l ++ c :: r), s.start < units l + unitsOf c →
    s.stop < units l + unitsOf c) : Legal m (l ++ c :: r) (units l) := by
  refine legal_of_forall (addressable_append _ _) ?_
  intro s hs h1 h2
  have h3 := (s.addressable_stop hs).le_of_lt h2
  have h4 := h s hs (by omega)
  omega

/-- Stepping forward over a character leads into a mention only if that mention starts at the
position or is around it. -/
theorem legal_step_forward (h : ∀ s ∈ scan m (l ++ c :: r), s.start ≤ units l →
    s.stop ≤ units l) : Legal m (l ++ c :: r) (units l + unitsOf c) := by
  have ha : Addressable (l ++ c :: r) (units l + unitsOf c) := by
    simpa using addressable_append (l ++ [c]) r
  refine legal_of_forall ha ?_
  intro s hs h1 h2
  have h3 := h s hs ((s.addressable_start hs).le_of_lt_add h1)
  omega

/-! ## Clicks -/

/-- A click lands where it is rounded down to, or at the nearer end of the mention around there. -/
theorem Config.clamp_cases (config : Config) (buffer : Text) (cursor : Nat) :
    Legal config.marker buffer (buffer.floor cursor) ∧
        config.clamp buffer cursor = buffer.floor cursor ∨
      ∃ s ∈ scan config.marker buffer, s.interior (buffer.floor cursor) = true ∧
        config.clamp buffer cursor = s.nearerEnd (buffer.floor cursor) := by
  rw [Config.clamp]
  split
  · next s hs =>
    obtain ⟨hmem, hi⟩ := Span.mem_of_around?_eq_some hs
    exact .inr ⟨s, hmem, Span.interior_iff.2 hi, rfl⟩
  · next hnone => exact .inl ⟨legal_of_around?_eq_none (addressable_floor _ _) hnone, rfl⟩

/-- The nearer end of a span is one of its ends. -/
theorem Span.nearerEnd_eq (s : Span) (u : Nat) :
    s.nearerEnd u = s.start ∨ s.nearerEnd u = s.stop := by
  rw [nearerEnd]
  split
  · exact .inl rfl
  · exact .inr rfl

/-- A click lands at a legal position. -/
theorem Config.legal_clamp (config : Config) (buffer : Text) (cursor : Nat) :
    Legal config.marker buffer (config.clamp buffer cursor) := by
  rcases config.clamp_cases buffer cursor with ⟨hlegal, heq⟩ | ⟨s, hs, -, heq⟩
  · rwa [heq]
  · rw [heq]
    rcases s.nearerEnd_eq (buffer.floor cursor) with hend | hend
    · rw [hend]
      exact legal_start hs
    · rw [hend]
      exact legal_stop hs

/-! ## Accepted configurations -/

namespace Config

/-- A configuration is accepted if its marker can open a mention and the limit leaves room for a
body. -/
theorem validate_eq_ok_iff {config : Config} :
    config.validate = .ok () ↔ isMarker config.marker = true ∧ 2 ≤ config.maxLength := by
  rw [validate]
  by_cases hm : isMarker config.marker = true
  · rw [if_pos hm]
    by_cases hl : config.maxLength < 2
    · rw [if_pos hl]
      exact ⟨nofun, fun h => absurd hl (Nat.not_lt.2 h.2)⟩
    · rw [if_neg hl]
      exact ⟨fun _ => ⟨hm, Nat.not_lt.1 hl⟩, fun _ => rfl⟩
  · rw [if_neg hm]
    exact ⟨nofun, fun h => absurd h.1 hm⟩

/-- The marker of an accepted configuration is not blank, invisible or a body character. -/
theorem marker_of_validate {config : Config} (hv : config.validate = .ok ()) :
    isBodyChar config.marker = false ∧ isZeroWidth config.marker = false ∧
      isBlankChar config.marker = false := by
  have h := (validate_eq_ok_iff.1 hv).1
  simpa [isMarker, and_assoc] using h

/-- The line feed opens no mention in an accepted configuration. -/
theorem marker_ne_newline {config : Config} (hv : config.validate = .ok ()) :
    '\n' ≠ config.marker := by
  intro h
  have hblank := (marker_of_validate hv).2.2
  rw [← h] at hblank
  revert hblank
  decide

end Config

end Mentions
