import Mentions.Proofs.Scan.Append
import Mentions.Widget

/-!
# Typing behind a mention

A character that is typed is put into the buffer by the library, with a space before it, where a
mention ends at the cursor, and by the host everywhere else (`typed`, `typed_cases`). A mention
before the cursor stays as it is exactly if the text behind it is released still.

At the end of the mention it always is: a space is put in between, or the guard lets through what
cannot belong to a mention. Further to the right the guard does not look, and there is one way for
the mention to grow: full stops and hyphens, which belong to no mention as long as nothing follows
them, and then a letter, digit or underscore that is typed behind them.
`typing_keeps_mention_iff` says so, and `typing_extends_mention` that it happens.
-/

namespace Mentions

open Text

variable {m c : Char} {b l r t : Text} {s : Span} {config : Config} {cursor : Nat}

/-! ## What stands between a mention and the cursor -/

/-- A mention that ends at or before a place, and the gap between the two. -/
theorem exists_gap (hs : s ∈ scan m (l ++ r)) (hle : s.stop ≤ units l) :
    ∃ l₀ b gap, l = l₀ ++ m :: (b ++ gap) ∧ IsBody b ∧ Released (gap ++ r) ∧
      s = ⟨units l₀, units l₀ + unitsOf m + units b, m :: b⟩ ∧
      slice? (l ++ r) s.stop (units l) = some gap := by
  obtain ⟨l₀, b, r₀, ht, hb, hr, rfl⟩ := exists_of_mem_scan hs
  have ht' : l ++ r = (l₀ ++ m :: b) ++ r₀ := by rw [ht, List.append_assoc, List.cons_append]
  have hstop : units l₀ + unitsOf m + units b = units (l₀ ++ m :: b) := by
    simp only [units_append, units_cons, Nat.add_assoc]
  rw [hstop] at hle ⊢
  obtain ⟨gap, rfl, rfl⟩ := append_of_le ht'.symm hle
  refine ⟨l₀, b, gap, by simp, hb, hr, by rw [hstop], ?_⟩
  rw [List.append_assoc, units_append _ gap]
  exact slice?_append _ gap r

/-- Between the span and the cursor stand full stops and hyphens, at least one, and nothing else. -/
def Span.PunctuatedTo (s : Span) (buffer : Text) (cursor : Nat) : Prop :=
  ∃ gap, buffer.slice? s.stop cursor = some gap ∧ gap ≠ [] ∧ ∀ c ∈ gap, c = '.' ∨ c = '-'

namespace Growth

/-! ## A character that is typed -/

/-- The buffer after a character has been typed: the one that the library puts in place, or else the
one that the host makes. -/
def typed (config : Config) (buffer : Text) (cursor : Nat) (c : Char) (words : Word.Segmenter) :
    Text :=
  let w : Widget := ⟨buffer, cursor, none⟩
  let o := config.apply buffer cursor (.insertChar c) words
  if o.intercepted then (w.take o).buffer else (w.defaultAction (.insertChar c)).buffer

/-- A character is inserted behind a space where a mention ends at the cursor. It is left to the
host where none does, or where it cannot belong to a mention and the guard lets it through. -/
theorem insertGuarded_cases (config : Config) (l r : Text) (c : Char) :
    (insertGuarded config (l ++ r) (units l) c =
        ⟨l ++ ' ' :: c :: r, units l + 1 + unitsOf c, true⟩ ∧
      ∃ s ∈ scan config.marker (l ++ r), s.stop = units l) ∨
    (insertGuarded config (l ++ r) (units l) c = ⟨l ++ r, units l, false⟩ ∧
      ((∀ s ∈ scan config.marker (l ++ r), s.stop ≠ units l) ∨ isBodyChar c = false)) := by
  rw [insertGuarded]
  by_cases hg : (config.guardBodyOnly && !isBodyChar c) = true
  · have hc : isBodyChar c = false := by simpa using (Bool.and_eq_true_iff.1 hg).2
    exact .inr ⟨if_pos hg, .inr hc⟩
  · rw [if_neg hg]
    cases hend : Span.endingAt? (scan config.marker (l ++ r)) (units l) with
    | none => exact .inr ⟨rfl, .inl (Span.endingAt?_eq_none_iff.1 hend)⟩
    | some s =>
      refine .inl ⟨?_, s, Span.mem_of_endingAt?_eq_some hend⟩
      simp only [splice?_insert, List.append_assoc, List.cons_append, List.nil_append]

/-- The host inserts a character by itself. -/
theorem insertChar_defaultAction (l r : Text) (c : Char) :
    ((⟨l ++ r, units l, none⟩ : Widget).defaultAction (.insertChar c)).buffer = l ++ c :: r := by
  simp [Widget.defaultAction, Widget.edit]

/-- A character is put into the buffer behind a space where a mention ends at the cursor, and by
itself where none does or where it cannot belong to a mention. -/
theorem typed_cases (config : Config) (words : Word.Segmenter) (l r : Text) (c : Char) :
    (typed config (l ++ r) (units l) c words = l ++ ' ' :: c :: r ∧
      ∃ s ∈ scan config.marker (l ++ r), s.stop = units l) ∨
    (typed config (l ++ r) (units l) c words = l ++ c :: r ∧
      ((∀ s ∈ scan config.marker (l ++ r), s.stop ≠ units l) ∨ isBodyChar c = false)) := by
  rw [typed, Config.apply]
  rcases insertGuarded_cases config l r c with ⟨he, hend⟩ | ⟨he, hout⟩
  · refine .inl ⟨?_, hend⟩
    simp [he, Outcome.replace, Widget.take]
  · refine .inr ⟨?_, hout⟩
    simp [he, Outcome.pass, insertChar_defaultAction]

/-! ## Mentions before the cursor -/

/-- No mention ends where only full stops and hyphens stand between another one and the cursor. -/
theorem stop_ne_of_gap {gap : Text} (hne : gap ≠ []) (hall : ∀ c ∈ gap, c = '.' ∨ c = '-')
    (hs : s ∈ scan m (l ++ gap ++ r)) : s.stop ≠ units (l ++ gap) := by
  rcases List.eq_nil_or_concat gap with rfl | ⟨gap, c, rfl⟩
  · exact absurd rfl hne
  · have hword : isWordChar c = false := by
      rcases hall c (by simp) with rfl | rfl <;> decide
    rw [List.concat_eq_append, ← List.append_assoc] at hs ⊢
    rw [List.append_assoc _ [c] r, List.singleton_append] at hs
    rw [units_append]
    exact s.stop_ne_of_isWordChar_eq_false hs hword

/-- **What is typed behind a mention leaves it as it is**, unless it is a letter, a digit or an
underscore with nothing but full stops and hyphens between the mention and the cursor, at least one
of them; and then the mention is no longer listed. -/
theorem typing_keeps_mention_iff (config : Config) (words : Word.Segmenter) (buffer : Text)
    (cursor : Nat) (c : Char) (s : Span) (hv : config.validate = .ok ())
    (hc : Addressable buffer cursor) (hs : s ∈ scan config.marker buffer) (hle : s.stop ≤ cursor) :
    s ∈ scan config.marker (typed config buffer cursor c words) ↔
      ¬(isWordChar c = true ∧ s.PunctuatedTo buffer cursor) := by
  have hm := (Config.marker_of_validate hv).1
  obtain ⟨l, r, rfl, rfl⟩ := addressable_iff.1 hc
  obtain ⟨l₀, b, gap, hl, hb, hr, hspan, hslice⟩ := exists_gap hs hle
  have hpunct : s.PunctuatedTo (l ++ r) (units l) ↔ gap ≠ [] ∧ ∀ c ∈ gap, c = '.' ∨ c = '-' := by
    rw [Span.PunctuatedTo, hslice]
    simp
  have hmem (t : Text) : s ∈ scan config.marker (l ++ t) ↔ Released (gap ++ t) := by
    rw [hspan, hl, List.append_assoc, List.cons_append, List.append_assoc]
    exact mem_scan_append_iff hm hb
  rcases typed_cases config words l r c with ⟨hnew, s', hs', hstop⟩ | ⟨hnew, hout⟩
  · rw [hnew, hmem]
    refine iff_of_true (hr.of_append_left.append fun _ => released_cons (by decide)) ?_
    rintro ⟨-, hp⟩
    obtain ⟨hne, hall⟩ := hpunct.1 hp
    have hl' : l = (l₀ ++ config.marker :: b) ++ gap := by simp [hl]
    rw [hl'] at hs' hstop
    exact stop_ne_of_gap hne hall hs' hstop
  · -- at the end of the mention itself, a word character would have been kept apart
    have hne : isWordChar c = true → gap ≠ [] := by
      rintro hword rfl
      have hstop : s.stop = units l := by
        rw [hspan, hl]
        simp [Nat.add_assoc]
      rcases hout with hout | hout
      · exact hout s hs hstop
      · rw [isBodyChar_of_isWordChar hword] at hout
        cases hout
    rw [hnew, hmem, released_append_cons_iff hr, hpunct, hr.of_append_left.forall_isBodyChar_iff]
    refine not_congr ⟨fun h => ⟨h.2, hne h.2, h.1⟩, fun h => ⟨h.2.2, h.1⟩⟩

/-- Behind a comma, a letter leaves the mention before it as it is. -/
theorem typing_keeps_mention_iff_comma :
    ({} : Config).validate = .ok () ∧ Addressable "@al,".toList 4 ∧
    (⟨0, 3, "@al".toList⟩ : Span) ∈ scan '@' "@al,".toList ∧ 3 ≤ 4 ∧
    typed {} "@al,".toList 4 'x' .standard = "@al,x".toList ∧
    (⟨0, 3, "@al".toList⟩ : Span) ∈ scan '@' "@al,x".toList := by
  have hv : ({} : Config).validate = .ok () := by decide
  have hc : Addressable "@al,".toList 4 := by decide
  have hs : (⟨0, 3, "@al".toList⟩ : Span) ∈ scan '@' "@al,".toList := by decide
  have htyped : typed {} "@al,".toList 4 'x' .standard = "@al,x".toList := by decide
  have hgap : slice? "@al,".toList 3 4 = some [','] := by decide
  have h := typing_keeps_mention_iff {} .standard "@al,".toList 4 'x' _ hv hc hs (by decide)
  rw [htyped] at h
  refine ⟨hv, hc, hs, by decide, htyped, h.2 ?_⟩
  rintro ⟨-, gap, hslice, -, hall⟩
  obtain rfl := Option.some.inj (hgap.symm.trans hslice)
  exact absurd (hall ',' (by simp)) (by decide)

/-- Behind a full stop, a letter makes the mention before it longer: nothing keeps them apart. -/
theorem typing_extends_mention :
    ({} : Config).validate = .ok () ∧ Legal '@' "@al.".toList 4 ∧
    (⟨0, 3, "@al".toList⟩ : Span) ∈ scan '@' "@al.".toList ∧ 3 ≤ 4 ∧
    (({} : Config).apply "@al.".toList 4 (.insertChar 'x') .standard).intercepted = false ∧
    typed {} "@al.".toList 4 'x' .standard = "@al.x".toList ∧
    (⟨0, 3, "@al".toList⟩ : Span) ∉ scan '@' "@al.x".toList :=
  ⟨by decide, by decide, by decide, by decide, by decide, by decide, by decide⟩

end Growth

end Mentions
