import Mentions.Proofs.Atomic.Remains

/-!
# The space after a mention

A single space may be all that keeps a mention apart from text that would make it longer. The
backspace key behind that space does one of three things (`backspace_cases`). A mention that starts
there is deleted, and the space stays. Where the first visible character is not blank, nothing
happens. Otherwise the host removes the space: then a blank or invisible character or the end of the
text comes next to the mention, and none of them is a body character (`released_of_strip`).

So the text behind the mention is released in all three cases, whatever invisible characters the
look ahead has passed over. Main statement: `backspace_keeps_mention`.
-/

namespace Mentions

open Text

variable {m c : Char} {before rest t : Text} {s s' : Span} {spans : List Span} {a b : Nat}
  {config : Config} {words : Word.Segmenter}

/-! ## The first visible character -/

/-- A blank character belongs to no body. -/
theorem isBodyChar_of_isBlankChar (h : isBlankChar c = true) : isBodyChar c = false := by
  refine Bool.eq_false_iff.2 fun hbody => ?_
  obtain ⟨hlow, hhigh⟩ := toNat_of_isBodyChar hbody
  obtain ⟨p, hp, hlo, hhi⟩ := Ranges.contains_iff.1 h
  simp only [blanks, List.mem_cons, List.not_mem_nil, or_false] at hp
  rcases hp with rfl | rfl | rfl | rfl | rfl | rfl | rfl | rfl | rfl | rfl <;>
    simp only at hlo hhi <;> omega

/-- A text is released if its first visible character is no body character. -/
theorem released_of_strip (h : ∀ c ∈ (strip t).head?, isBodyChar c = false) : Released t := by
  cases t with
  | nil => exact released_nil
  | cons c t =>
    refine released_cons ?_
    cases hz : isZeroWidth c with
    | true => exact isBodyChar_of_isZeroWidth hz
    | false =>
      refine h c ?_
      simp [strip, hz]

/-- The spans before a range remain without it. -/
theorem mem_remaining_of_stop_le (hs : s ∈ spans) (h : s.stop ≤ a) : s ∈ remaining a b spans := by
  refine List.mem_map.2 ⟨s, List.mem_filter.2 ⟨hs, ?_⟩, if_pos h⟩
  simp [h]

namespace Atomic

/-! ## Backspace behind the space -/

/-- The buffer after the backspace key has been pressed: the one that the library puts in place, or
else the one that the host makes. -/
def backspaced (config : Config) (buffer : Text) (cursor : Nat) (words : Word.Segmenter) : Text :=
  let w : Widget := ⟨buffer, cursor, none⟩
  let o := config.apply buffer cursor (.deleteBackward {}) words
  if o.intercepted then (w.take o).buffer else (w.defaultAction (.deleteBackward {})).buffer

/-- Where the library leaves it to the host, the character before the cursor is removed. -/
theorem backspaced_of_pass
    (h : config.apply (before ++ c :: rest) (units before + unitsOf c) (.deleteBackward {}) words =
      .pass) :
    backspaced config (before ++ c :: rest) (units before + unitsOf c) words = before ++ rest := by
  have hremoved := splice?_append before [c] rest []
  have hunits : units [c] = unitsOf c := Nat.add_zero _
  rw [hunits, List.singleton_append, List.append_nil] at hremoved
  simp [backspaced, h, Outcome.pass, Widget.defaultAction, Widget.edit, Host.before_append_cons,
    hremoved]

/-- A mention that ends before the space is kept apart by it exactly if the first visible character
behind the space is not blank. -/
theorem isSeparating_space (hs : s ∈ spans) (hstop : s.stop = units before) :
    isSeparating (before ++ ' ' :: rest) spans (units before + 1) =
      (strip rest).head?.any fun c => !isBlankChar c := by
  have hend : (Span.endingAt? spans (units before)).isSome = true := by
    refine List.find?_isSome.2 ⟨s, hs, decide_eq_true hstop⟩
  have htail : tail? (before ++ ' ' :: rest) (units before + 1) = some rest := by
    have h := tail?_append (before ++ [' ']) rest
    rwa [List.append_assoc, List.singleton_append, units_append] at h
  simp only [isSeparating, Nat.add_sub_cancel, hend, htail, charAt?_append, List.head?_cons,
    Option.bind_some, strip, List.head?_filter, Nat.succ_pos, decide_true, Bool.true_and]

/-- Behind the space after a mention, backspace deletes the mention that starts there. If there is
none, it does nothing where the first visible character is not blank, and else it passes. -/
theorem backspace_cases (words : Word.Segmenter) (hv : config.validate = .ok ())
    (hguard : config.guardTrailingSpace = true)
    (hs : s ∈ scan config.marker (before ++ ' ' :: rest)) (hstop : s.stop = units before) :
    (∃ s' ∈ scan config.marker (before ++ ' ' :: rest), s'.start = units before + 1 ∧
      config.apply (before ++ ' ' :: rest) (units before + 1) (.deleteBackward {}) words =
        remove (before ++ ' ' :: rest) s'.start s'.stop) ∨
    (∀ s' ∈ scan config.marker (before ++ ' ' :: rest), s'.start ≠ units before + 1) ∧
      ((config.apply (before ++ ' ' :: rest) (units before + 1) (.deleteBackward {}) words =
            .suppress ∧
          ∃ c ∈ (strip rest).head?, isBlankChar c = false) ∨
        (config.apply (before ++ ' ' :: rest) (units before + 1) (.deleteBackward {}) words =
            .pass ∧
          ∀ c ∈ (strip rest).head?, isBlankChar c = true)) := by
  have hmarker : ' ' ≠ config.marker := by
    intro h
    have hblank := (Config.marker_of_validate hv).2.2
    rw [← h] at hblank
    revert hblank
    decide
  have hlegal := legal_after (l := before) (r := rest) (by decide : isBodyChar ' ' = false) hmarker
  have hend : Span.endingAt? (scan config.marker (before ++ ' ' :: rest)) (units before + 1) =
      none := Span.endingAt?_eq_none_iff.2 fun s' hs' =>
    s'.stop_ne_of_isWordChar_eq_false hs' (by decide)
  have hout : config.apply (before ++ ' ' :: rest) (units before + 1) (.deleteBackward {}) words =
      deleteBackward config (before ++ ' ' :: rest) (scan config.marker (before ++ ' ' :: rest))
        (units before + 1) {} words := Host.intercept_of_addressable hlegal.1
  have haround := hlegal.around?_eq_none
  have hspace : unitsOf ' ' = 1 := rfl
  rw [hspace] at haround
  rw [hout, deleteBackward]
  simp only [Bool.false_eq_true, if_false, hend, haround, hguard, Bool.true_and,
    isSeparating_space hs hstop]
  cases hstart : Span.startingAt? (scan config.marker (before ++ ' ' :: rest))
      (units before + 1) with
  | some s' =>
    obtain ⟨hs', hu⟩ := Span.mem_of_startingAt?_eq_some hstart
    exact .inl ⟨s', hs', hu, rfl⟩
  | none =>
    refine .inr ⟨Span.startingAt?_eq_none_iff.1 hstart, ?_⟩
    cases (strip rest).head? with
    | none => exact .inr ⟨rfl, by simp⟩
    | some c =>
      cases hc : isBlankChar c with
      | true => exact .inr ⟨by simp [hc], by simpa using hc⟩
      | false => exact .inl ⟨by simp [hc], c, rfl, hc⟩

/-- **Backspace on the space after a mention leaves the mention as it is.** With the guard of that
space, the mention is listed in the buffer after the key press, whatever follows the space. The
space is removed only where no mention starts behind it and the first visible character there is
blank or missing, and always there. -/
theorem backspace_keeps_mention (config : Config) (words : Word.Segmenter) (before rest : Text)
    (s : Span) (hv : config.validate = .ok ()) (hguard : config.guardTrailingSpace = true)
    (hs : s ∈ scan config.marker (before ++ ' ' :: rest)) (hstop : s.stop = units before) :
    s ∈ scan config.marker (backspaced config (before ++ ' ' :: rest) (s.stop + 1) words) ∧
    (config.apply (before ++ ' ' :: rest) (s.stop + 1) (.deleteBackward {}) words = .pass ↔
      (∀ s' ∈ scan config.marker (before ++ ' ' :: rest), s'.start ≠ s.stop + 1) ∧
        ∀ c ∈ (strip rest).head?, isBlankChar c = true) ∧
    (config.apply (before ++ ' ' :: rest) (s.stop + 1) (.deleteBackward {}) words = .pass →
      backspaced config (before ++ ' ' :: rest) (s.stop + 1) words = before ++ rest) := by
  have hm := (Config.marker_of_validate hv).1
  rw [hstop]
  refine ⟨?_, ?_, backspaced_of_pass⟩
  · rcases backspace_cases words hv hguard hs hstop with
      ⟨s', hs', hstart, hout⟩ | ⟨-, ⟨hout, -⟩ | h⟩
    · obtain ⟨new, hremove, -, hscan, -⟩ := exists_remove_span hm hs'
      rw [hremove] at hout
      have hnew : backspaced config (before ++ ' ' :: rest) (units before + 1) words = new := by
        simp [backspaced, hout, Outcome.replace, Widget.take]
      rw [hnew, hscan]
      exact mem_remaining_of_stop_le hs (by omega)
    · have hold : backspaced config (before ++ ' ' :: rest) (units before + 1) words =
          before ++ ' ' :: rest := by
        simp [backspaced, hout, Outcome.suppress, Widget.take]
      rwa [hold]
    · obtain ⟨hout, hblank⟩ := h
      have hpassed : backspaced config (before ++ ' ' :: rest) (units before + 1) words =
          before ++ rest := backspaced_of_pass hout
      have hreleased : Released rest := released_of_strip fun c hc =>
        isBodyChar_of_isBlankChar (hblank c hc)
      rw [hpassed]
      obtain ⟨l, b, rfl, hb, -, rfl⟩ := exists_of_stop_eq hs hstop
      rw [List.append_assoc, List.cons_append]
      exact (mem_scan_append_iff hm hb).2 hreleased
  · rcases backspace_cases words hv hguard hs hstop with
      ⟨s', hs', hstart, hout⟩ | ⟨hnone, ⟨hout, c, hc, hblank⟩ | ⟨hout, hblank⟩⟩
    · obtain ⟨new, hremove, -⟩ := exists_remove_span hm hs'
      rw [hout, hremove]
      exact iff_of_false (by simp [Outcome.replace, Outcome.pass]) fun h => h.1 s' hs' hstart
    · rw [hout]
      refine iff_of_false (by decide) fun h => ?_
      rw [h.2 c hc] at hblank
      cases hblank
    · exact iff_of_true hout ⟨hnone, hblank⟩

/-- Behind an invisible character stands a letter, so the space stays. -/
theorem backspace_keeps_mention_invisible :
    ({} : Config).validate = .ok () ∧ ({} : Config).guardTrailingSpace = true ∧
    (⟨3, 6, "@al".toList⟩ : Span) ∈ scan '@' "cc @al \u200bx".toList ∧
    units "cc @al".toList = 6 ∧
    ({} : Config).apply "cc @al \u200bx".toList 7 (.deleteBackward {}) .standard ≠ .pass ∧
    (⟨3, 6, "@al".toList⟩ : Span) ∈
      scan '@' (backspaced {} "cc @al \u200bx".toList 7 .standard) := by
  have hv : ({} : Config).validate = .ok () := by decide
  have hs : (⟨3, 6, "@al".toList⟩ : Span) ∈ scan '@' "cc @al \u200bx".toList := by decide
  have h := backspace_keeps_mention {} .standard "cc @al".toList "\u200bx".toList _ hv rfl hs
    (by decide)
  refine ⟨hv, rfl, hs, by decide, fun hpass => ?_, h.1⟩
  exact absurd ((h.2.1.1 hpass).2 'x' (by decide)) (by decide)

end Atomic

end Mentions
