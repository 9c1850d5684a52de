import Mentions.Editing
import Mentions.Proofs.Atomic.Remains
import Mentions.Proofs.Growth.Behind
import Mentions.Proofs.Growth.Insertion

/-!
# Mentions that have been moved

A repair takes a mention for grown if it starts where a shorter one has stood before the edit and
begins with it. The library's own edits let no mention grow, but they move those behind the place of
the edit: the deletion of a mention to the left, a guarded insertion to the right. A mention that
has been moved may come to stand where one has stood that it begins with, and then the repair cuts
it in two: `moved_mention_looks_grown`.

`own_edit_repaired_iff` says exactly when this happens, for both kinds of edit. A deletion moves the
mentions behind it by the length of the one that is deleted (`exists_grown_remaining_iff`). An
insertion moves them by no more than three units (`exists_grown_pushed_iff`), and there is room for
a mention and a longer one before it only if the longer one has three units, is followed by the
other one at once and is moved by three units.
-/

namespace Mentions

open Text

variable {m c : Char} {t : Text} {p q s : Span} {spans : List Span} {a b n cursor : Nat}

/-- The mention is a shorter text at the head of the other one, wherever the two stand. -/
def Span.Begins (p q : Span) : Prop := p.text <+: q.text ∧ p.text.length < q.text.length

instance (p q : Span) : Decidable (p.Begins q) := inferInstanceAs (Decidable (_ ∧ _))

namespace Growth

/-! ## Moved to the left -/

theorem mem_remaining_iff :
    q ∈ remaining a b spans ↔ ∃ s ∈ spans, (s.stop ≤ a ∨ b ≤ s.start) ∧ s.without a b = q := by
  simp [remaining, and_assoc]

/-- Without a mention, another one looks grown exactly if it stands behind the mention, as far as
the mention is long behind one that it begins with. -/
theorem exists_grown_remaining_iff (hs : s ∈ scan m t) :
    (∃ q ∈ remaining s.start s.stop (scan m t), q.Grown (scan m t)) ↔
      ∃ p ∈ scan m t, ∃ q ∈ scan m t,
        s.stop ≤ q.start ∧ q.start = p.start + s.length ∧ p.Begins q := by
  have hlt := s.start_lt_stop hs
  constructor
  · rintro ⟨q', hq', hgrown⟩
    obtain ⟨q, hq, hout, rfl⟩ := mem_remaining_iff.1 hq'
    by_cases hle : q.stop ≤ s.start
    · rw [Span.without, if_pos hle] at hgrown
      exact absurd hgrown (not_grown_of_mem hq)
    · obtain ⟨p, hp, hstart, hbegins⟩ := hgrown
      rw [Span.without, if_neg hle] at hstart hbegins
      have hbehind : s.stop ≤ q.start := hout.resolve_left hle
      refine ⟨p, hp, q, hq, hbehind, ?_, hbegins⟩
      simp only [Span.length] at hstart ⊢
      omega
  · rintro ⟨p, hp, q, hq, hbehind, hstart, hbegins⟩
    have hnot : ¬q.stop ≤ s.start := by
      have := q.start_lt_stop hq
      omega
    refine ⟨q.without s.start s.stop, mem_remaining_iff.2 ⟨q, hq, .inr hbehind, rfl⟩, p, hp, ?_⟩
    rw [Span.without, if_neg hnot]
    refine ⟨?_, hbegins⟩
    simp only [Span.length] at hstart ⊢
    omega

/-! ## Moved to the right -/

/-- With `n` units inserted behind a mention, another one looks grown exactly if it stands behind
the mention, `n` units before one that it begins with. -/
theorem exists_grown_map_pushed_iff (hs : s ∈ scan m t) :
    (∃ q ∈ (scan m t).map (Span.pushed s.stop n), q.Grown (scan m t)) ↔
      ∃ p ∈ scan m t, ∃ q ∈ scan m t,
        s.stop ≤ q.start ∧ p.start = q.start + n ∧ p.Begins q := by
  constructor
  · rintro ⟨q', hq', hgrown⟩
    obtain ⟨q, hq, rfl⟩ := List.mem_map.1 hq'
    rcases Nat.lt_or_ge s.stop q.stop with hlt | hle
    · rw [Span.pushed_of_lt_stop hlt] at hgrown
      obtain ⟨p, hp, hstart, hbegins⟩ := hgrown
      have hbehind := (legal_stop hs).outside hq
      exact ⟨p, hp, q, hq, by omega, hstart, hbegins⟩
    · rw [Span.pushed_of_stop_le hle] at hgrown
      exact absurd hgrown (not_grown_of_mem hq)
  · rintro ⟨p, hp, q, hq, hbehind, hstart, hbegins⟩
    have hlt := q.start_lt_stop hq
    refine ⟨_, List.mem_map_of_mem hq, p, hp, ?_⟩
    rw [Span.pushed_of_lt_stop (Nat.lt_of_le_of_lt hbehind hlt)]
    exact ⟨hstart, hbegins⟩

/-- A mention that another one begins with has at least three units: a marker and two more
characters. -/
theorem three_le_length (hp : p ∈ scan m t) (hq : q ∈ scan m t) (h : p.Begins q) :
    3 ≤ q.length := by
  obtain ⟨⟨x, hx⟩, hlt⟩ := h
  obtain ⟨-, b, hb, hbody⟩ := p.slice?_eq_text hp
  have hne : x ≠ [] := by
    rintro rfl
    rw [List.append_nil] at hx
    rw [hx] at hlt
    exact Nat.lt_irrefl _ hlt
  have hm := unitsOf_pos m
  have hpos := units_pos hbody.ne_nil
  have hxpos := units_pos hne
  have hunits : units q.text = unitsOf m + units b + units x := by
    rw [← hx, hb, units_append, units_cons]
  rw [Span.length, q.stop_eq hq]
  omega

/-- With a space and a character inserted behind a mention, another one looks grown exactly if the
character takes two units and the other one three, and a mention follows it at once that it begins
with. -/
theorem exists_grown_pushed_iff (hs : s ∈ scan m t) (c : Char) :
    (∃ q ∈ (scan m t).map (Span.pushed s.stop (1 + unitsOf c)), q.Grown (scan m t)) ↔
      unitsOf c = 2 ∧ ∃ p ∈ scan m t, ∃ q ∈ scan m t,
        s.stop ≤ q.start ∧ q.stop = p.start ∧ q.length = 3 ∧ p.Begins q := by
  rw [exists_grown_map_pushed_iff hs]
  constructor
  · rintro ⟨p, hp, q, hq, hbehind, hstart, hbegins⟩
    have hlong := three_le_length hp hq hbegins
    have hc := unitsOf_le_two c
    have hne : p ≠ q := by
      rintro rfl
      exact Nat.lt_irrefl _ hbegins.2
    have hlt := p.start_lt_stop hp
    rw [Span.length] at hlong
    rcases Span.apart_of_ne hp hq hne with hapart | hapart
    · omega
    · exact ⟨by omega, p, hp, q, hq, hbehind, by omega, by rw [Span.length]; omega, hbegins⟩
  · rintro ⟨hc, p, hp, q, hq, hbehind, hstop, hlen, hbegins⟩
    have hlt := q.start_lt_stop hq
    rw [Span.length] at hlen
    exact ⟨p, hp, q, hq, hbehind, by omega, hbegins⟩

end Growth

/-! ## The library's own edits -/

/-- The deletion of a mention removes it, and the other mentions remain. -/
theorem Atomic.DeletesMention.exists_apply_eq {config : Config} {buffer : Text} {intent : Intent}
    (words : Word.Segmenter)
    (hm : isBodyChar config.marker = false) (hs : s ∈ scan config.marker buffer)
    (h : DeletesMention (scan config.marker buffer) s cursor intent) :
    ∃ new, config.apply buffer cursor intent words = .replace new s.start ∧
      buffer.splice? s.start s.stop [] = some new ∧
      scan config.marker new = remaining s.start s.stop (scan config.marker buffer) := by
  obtain ⟨new, hremove, hnew, hscan, -⟩ := exists_remove_span hm hs
  have happly : config.apply buffer cursor intent words =
      intercept config buffer cursor intent words := by
    cases h <;> rfl
  refine ⟨new, ?_, hnew, hscan⟩
  rw [happly, h.intercept_eq hs, hremove]

namespace Growth

/-- A guarded insertion puts a space and the character behind the mention, and moves the mentions
behind it. -/
theorem exists_apply_insertChar_eq {config : Config} {buffer : Text} (words : Word.Segmenter)
    (hv : config.validate = .ok ()) (hs : s ∈ scan config.marker buffer)
    (hc : config.guardBodyOnly = true → isBodyChar c = true) :
    ∃ new, config.apply buffer s.stop (.insertChar c) words =
        .replace new (s.stop + 1 + unitsOf c) ∧
      buffer.splice? s.stop s.stop [' ', c] = some new ∧
      scan config.marker new =
        (scan config.marker buffer).map (Span.pushed s.stop (1 + unitsOf c)) := by
  obtain ⟨hm, -, hblank⟩ := Config.marker_of_validate hv
  obtain ⟨l, r, rfl, hstop⟩ := addressable_iff.1 (s.addressable_stop hs)
  have hedit := insertGuarded_stop hs hstop.symm c
  rw [if_pos hc] at hedit
  rw [← hstop]
  refine ⟨l ++ ([' ', c] ++ r), ?_, ?_, (scan_insert_space hm hblank hs hstop.symm c).1⟩
  · simp only [Config.apply, hedit, if_true]
  · rw [splice?_insert, List.append_assoc]

/-- **When the repair leaves the library's own edits alone.** No edit lets a mention grow: after the
deletion of a mention, and after a guarded insertion at the end of one, the mentions are the old
ones, moved with the text around them. The repair against the buffer before the edit changes nothing
unless a mention has been moved to where a shorter one has stood that it begins with. After a
deletion that is one that stands as far behind such a mention as the deleted one is long. After an
insertion it has three units, the shorter one follows it at once, and the character takes two
units. -/
theorem own_edit_repaired_iff (config : Config) (words : Word.Segmenter) (buffer : Text)
    (s : Span) (hv : config.validate = .ok ()) (hs : s ∈ scan config.marker buffer) :
    let olds := scan config.marker buffer
    (∀ cursor intent, Atomic.DeletesMention olds s cursor intent →
      ∃ new, config.apply buffer cursor intent words = .replace new s.start ∧
        buffer.splice? s.start s.stop [] = some new ∧
        scan config.marker new = remaining s.start s.stop olds ∧
        (repair config new (some buffer) = new ↔
          ¬∃ p ∈ olds, ∃ q ∈ olds,
            s.stop ≤ q.start ∧ q.start = p.start + s.length ∧ p.Begins q)) ∧
    ∀ c, (config.guardBodyOnly = true → isBodyChar c = true) →
      ∃ new, config.apply buffer s.stop (.insertChar c) words =
          .replace new (s.stop + 1 + unitsOf c) ∧
        buffer.splice? s.stop s.stop [' ', c] = some new ∧
        scan config.marker new = olds.map (Span.pushed s.stop (1 + unitsOf c)) ∧
        (repair config new (some buffer) = new ↔
          ¬(unitsOf c = 2 ∧ ∃ p ∈ olds, ∃ q ∈ olds,
            s.stop ≤ q.start ∧ q.stop = p.start ∧ q.length = 3 ∧ p.Begins q)) := by
  intro olds
  obtain ⟨hm, hz, -⟩ := Config.marker_of_validate hv
  constructor
  · intro cursor intent h
    obtain ⟨new, happly, hnew, hscan⟩ := h.exists_apply_eq words hm hs
    refine ⟨new, happly, hnew, hscan, ?_⟩
    rw [repair_eq_self_iff config hm hz, ← exists_grown_remaining_iff hs, hscan]
    simp only [not_exists, not_and]
  · intro c hc
    obtain ⟨new, happly, hnew, hscan⟩ := exists_apply_insertChar_eq words hv hs hc
    refine ⟨new, happly, hnew, hscan, ?_⟩
    rw [repair_eq_self_iff config hm hz, ← exists_grown_pushed_iff hs, hscan]
    simp only [not_exists, not_and]

/-- A mention comes to stand where another one has stood, but does not begin with it. -/
theorem own_edit_repaired_iff_aligned :
    ({} : Config).validate = .ok () ∧
    (⟨0, 3, "@ab".toList⟩ : Span) ∈ scan '@' "@ab @x @yz".toList ∧
    Atomic.DeletesMention (scan '@' "@ab @x @yz".toList) ⟨0, 3, "@ab".toList⟩ 3
      (.deleteBackward ⟨false, false⟩) ∧
    ({} : Config).apply "@ab @x @yz".toList 3 (.deleteBackward ⟨false, false⟩) .standard =
      .replace " @x @yz".toList 0 ∧
    scan '@' " @x @yz".toList = [⟨1, 3, "@x".toList⟩, ⟨4, 7, "@yz".toList⟩] ∧
    repair {} " @x @yz".toList (some "@ab @x @yz".toList) = " @x @yz".toList ∧
    ({} : Config).apply "@ab @x @yz".toList 3 (.insertChar 'c') .standard =
      .replace "@ab c @x @yz".toList 5 ∧
    repair {} "@ab c @x @yz".toList (some "@ab @x @yz".toList) = "@ab c @x @yz".toList := by
  have hv : ({} : Config).validate = .ok () := by decide
  have hs : (⟨0, 3, "@ab".toList⟩ : Span) ∈ scan '@' "@ab @x @yz".toList := by decide
  have hdelete : Atomic.DeletesMention (scan '@' "@ab @x @yz".toList) ⟨0, 3, "@ab".toList⟩ 3
      (.deleteBackward ⟨false, false⟩) := .fromStop false
  have hleft : splice? "@ab @x @yz".toList 0 3 [] = some " @x @yz".toList := by decide
  have hright : splice? "@ab @x @yz".toList 3 3 [' ', 'c'] = some "@ab c @x @yz".toList := by decide
  obtain ⟨hdel, hins⟩ := own_edit_repaired_iff {} .standard "@ab @x @yz".toList _ hv hs
  obtain ⟨new, happly, hnew, hscan, hrepair⟩ := hdel _ _ hdelete
  obtain rfl := Option.some.inj (hnew.symm.trans hleft)
  obtain ⟨new, happly', hnew', -, hrepair'⟩ := hins 'c' nofun
  obtain rfl := Option.some.inj (hnew'.symm.trans hright)
  refine ⟨hv, hs, hdelete, happly, hscan.trans ?_, hrepair.2 ?_, happly', hrepair'.2 ?_⟩
  · decide
  · decide
  · decide

/-- A mention moves to where the one before it has stood that it begins with, when that one is
deleted, and another to where the one behind it has stood, when a space and a character of two units
are inserted. The repair cuts both. -/
theorem moved_mention_looks_grown :
    ({} : Config).validate = .ok () ∧
    (⟨0, 3, "@al".toList⟩ : Span) ∈ scan '@' "@al@alice".toList ∧
    ({} : Config).apply "@al@alice".toList 0 (.deleteForward ⟨false, false⟩) .standard =
      .replace "@alice".toList 0 ∧
    repair {} "@alice".toList (some "@al@alice".toList) = "@al\u200b\u200c\u200bice".toList ∧
    "@al\u200b\u200c\u200bice".toList ≠ "@alice".toList ∧
    (⟨0, 2, "@x".toList⟩ : Span) ∈ scan '@' "@x@ab@a".toList ∧
    ({} : Config).apply "@x@ab@a".toList 2 (.insertChar '😀') .standard =
      .replace "@x 😀@ab@a".toList 5 ∧
    repair {} "@x 😀@ab@a".toList (some "@x@ab@a".toList) =
      "@x 😀@a\u200b\u200c\u200bb@a".toList ∧
    "@x 😀@a\u200b\u200c\u200bb@a".toList ≠ "@x 😀@ab@a".toList :=
  ⟨by decide, by decide, by decide, by decide +kernel, by decide, by decide, by decide,
    by decide +kernel, by decide⟩

end Growth

end Mentions
