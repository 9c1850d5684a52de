import Mathlib.Data.List.Pairwise
import Mathlib.Logic.ExistsUnique
import Mentions.Proofs.Scan.Rules

/-!
# The mentions of a buffer

The scan of a buffer lists the mentions of the grammar and nothing else: `scan_leftmost_greedy` says
so for every marker, one that is a body character or takes two units included. The spans are in
order and apart from each other, each is a marker with the longest body after it, and every marker
with a body after it starts a span or lies inside one. A marker that is no body character lies
inside no span, so each of its occurrences with a body starts one.
-/

namespace Mentions

open Text

variable {m : Char} {b l r t : Text} {s s' : Span}

/-- A span of a buffer is a marker with a body and a released rest. -/
theorem exists_of_mem_scan (hs : s ∈ scan m t) :
    ∃ l b r, t = l ++ m :: (b ++ r) ∧ IsBody b ∧ Released r ∧
      s = ⟨units l, units l + unitsOf m + units b, m :: b⟩ := by
  obtain ⟨l, b, r, ht, hb, hr, rfl⟩ := (scans_scan m t).exists_append hs
  exact ⟨l, b, r, ht, hb, hr, by simp⟩

theorem Span.start_lt_stop (hs : s ∈ scan m t) : s.start < s.stop := by
  obtain ⟨l, b, r, -, -, -, rfl⟩ := exists_of_mem_scan hs
  have := unitsOf_pos m
  simp only
  omega

/-- Each span ends before the next one starts. -/
theorem scan_pairwise (m : Char) (t : Text) :
    (scan m t).Pairwise fun s s' => s.stop ≤ s'.start :=
  (scans_scan m t).pairwise

/-- One of two spans ends before the other starts. -/
def Span.Apart (s s' : Span) : Prop := s.stop ≤ s'.start ∨ s'.stop ≤ s.start

instance : Std.Symm Span.Apart := ⟨fun _ _ => Or.symm⟩

/-- Different spans of a buffer are apart. -/
theorem Span.apart_of_ne (hs : s ∈ scan m t) (hs' : s' ∈ scan m t) (h : s ≠ s') :
    s.Apart s' := by
  have hp : (scan m t).Pairwise Apart := (scan_pairwise m t).imp fun h => .inl h
  exact hp.forall hs hs' h

/-- Two spans that start at the same offset are the same. -/
theorem eq_of_start_eq (hs : s ∈ scan m t) (hs' : s' ∈ scan m t) (h : s.start = s'.start) :
    s = s' := by
  have h1 := s.start_lt_stop hs
  have h2 := s'.start_lt_stop hs'
  refine Decidable.byContradiction fun hne => ?_
  rcases Span.apart_of_ne hs hs' hne with h' | h' <;> omega

/-- A marker that is no body character starts a span wherever a body follows it. -/
theorem exists_mem_scan_of_not_body (hm : isBodyChar m = false) (ht : t = l ++ m :: (b ++ r))
    (hb : IsBody b) : ∃ s ∈ scan m t, s.start = units l := by
  obtain ⟨s, hs, h1, h2⟩ := (scans_scan m t).exists_mem ht hb
  refine ⟨s, hs, ?_⟩
  obtain ⟨l', b', r', ht', hb', -, rfl⟩ := exists_of_mem_scan hs
  simp only [Nat.zero_add] at h1 h2 ⊢
  rcases Nat.lt_or_ge (units l') (units l) with hlt | hge
  · -- otherwise the marker would stand in the body of the span
    obtain ⟨c, x, rfl, hx⟩ := append_of_lt (ht'.symm.trans ht) hlt
    obtain ⟨rfl, hrest⟩ := List.cons.inj hx
    have hin : units x < units b' := by
      have := unitsOf_pos m
      simp only [units_append, units_cons] at h2
      omega
    obtain ⟨d, y, rfl, hy⟩ := append_of_lt hrest.symm hin
    obtain ⟨rfl, -⟩ := List.cons.inj hy
    have := hb'.chars m (by simp)
    rw [hm] at this
    cases this
  · omega

/-- A span starts at a place of the buffer. -/
theorem Span.addressable_start (hs : s ∈ scan m t) : Addressable t s.start := by
  obtain ⟨l, b, r, rfl, -, -, rfl⟩ := exists_of_mem_scan hs
  exact addressable_append _ _

/-- A span ends at a place of the buffer, and what follows it there is released. -/
theorem Span.exists_tail?_stop (hs : s ∈ scan m t) :
    ∃ r, tail? t s.stop = some r ∧ Released r := by
  obtain ⟨l, b, r, rfl, -, hr, rfl⟩ := exists_of_mem_scan hs
  refine ⟨r, ?_, hr⟩
  have hstop : units l + unitsOf m + units b = units (l ++ m :: b) := by
    simp [Nat.add_assoc]
  rw [hstop, ← List.cons_append, ← List.append_assoc]
  exact tail?_append _ _

theorem Span.addressable_stop (hs : s ∈ scan m t) : Addressable t s.stop := by
  obtain ⟨r, hr, -⟩ := s.exists_tail?_stop hs
  rw [Addressable]
  cases h : t.cut? s.stop with
  | none => simp [tail?, h] at hr
  | some _ => rfl

/-- The text of a span is what the buffer holds between its ends: a marker with a body. -/
theorem Span.slice?_eq_text (hs : s ∈ scan m t) :
    slice? t s.start s.stop = some s.text ∧ ∃ b, s.text = m :: b ∧ IsBody b := by
  obtain ⟨l, b, r, rfl, hb, -, rfl⟩ := exists_of_mem_scan hs
  refine ⟨?_, b, rfl, hb⟩
  rw [← List.cons_append, Nat.add_assoc]
  exact slice?_append l (m :: b) r

/-- **The scan lists the mentions of the grammar.** The spans follow each other; each is a marker
with a body that no body character but full stops and hyphens follows; and every marker with a body
after it starts a span or lies inside one, one that is no body character the former. -/
theorem scan_leftmost_greedy (m : Char) (buffer : Text) :
    (scan m buffer).Pairwise (fun s s' => s.start < s'.start ∧ s.stop ≤ s'.start) ∧
    (∀ s ∈ scan m buffer,
      Addressable buffer s.start ∧ Addressable buffer s.stop ∧
      buffer.slice? s.start s.stop = some s.text ∧
      (∃ b, s.text = m :: b ∧ IsBody b) ∧
      ∃ r, buffer.tail? s.stop = some r ∧ ∀ c ∈ r.takeWhile isBodyChar, c = '.' ∨ c = '-') ∧
    (∀ l b r, buffer = l ++ m :: (b ++ r) → IsBody b →
      ∃ s ∈ scan m buffer,
        s.start = units l ∨ s.start < units l ∧ units l + unitsOf m ≤ s.stop) ∧
    (isBodyChar m = false → ∀ l b r, buffer = l ++ m :: (b ++ r) → IsBody b →
      ∃! s, s ∈ scan m buffer ∧ s.start = units l) := by
  refine ⟨?_, ?_, ?_, ?_⟩
  · refine List.Pairwise.imp_of_mem (fun {s s'} hs hs' h => ⟨?_, h⟩) (scan_pairwise m buffer)
    exact Nat.lt_of_lt_of_le (s.start_lt_stop hs) h
  · intro s hs
    obtain ⟨r, hr, hrel⟩ := s.exists_tail?_stop hs
    obtain ⟨htext, hbody⟩ := s.slice?_eq_text hs
    exact ⟨s.addressable_start hs, s.addressable_stop hs, htext, hbody, r, hr,
      released_iff.1 hrel⟩
  · intro l b r ht hb
    obtain ⟨s, hs, h1, h2⟩ := (scans_scan m buffer).exists_mem ht hb
    rw [Nat.zero_add] at h1 h2
    refine ⟨s, hs, ?_⟩
    omega
  · intro hm l b r ht hb
    obtain ⟨s, hs, h⟩ := exists_mem_scan_of_not_body hm ht hb
    exact ⟨s, ⟨hs, h⟩, fun s' hs' => eq_of_start_eq hs'.1 hs (hs'.2.trans h.symm)⟩

/-- A marker that is a body character may lie inside a mention: the second letter does. -/
theorem scan_leftmost_greedy_inside :
    isBodyChar 'a' = true ∧ ∃ s ∈ scan 'a' "aab".toList,
      s.start = units ['a'] ∨ s.start < units ['a'] ∧ units ['a'] + unitsOf 'a' ≤ s.stop :=
  ⟨by decide, (scan_leftmost_greedy 'a' "aab".toList).2.2.1 ['a'] ['b'] [] rfl
    ((isBody_concat_iff (l := [])).2 ⟨by simp, by decide⟩)⟩

end Mentions
