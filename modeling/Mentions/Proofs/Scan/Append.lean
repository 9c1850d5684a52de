import Mentions.Proofs.Scan.Position

/-!
# Scanning joined texts

A text *ends open* if it ends in a marker with nothing but body characters behind it
(`EndsOpen`): what is written behind it may become part of a mention. Two texts *fuse* if the first
one ends open and the second one is not released (`Fuses`).

The scan of two texts that do not fuse lists the mentions of the first and then, moved to the right,
those of the second (`scan_append`), by the rules of the scan: each rule that applies in the first
text applies with the second one behind it. Texts that fuse have a mention around the place where
they meet, so that this place is legal exactly if they do not fuse (`legal_append_iff`). A text that
starts with no body character is released, so it fuses with none before it
(`scan_distributes_over_append`).

A mention at a known place takes a scan apart in the same way (`scan_append_mention`), and it is
listed exactly if the text behind it is released (`mem_scan_append_iff`).
-/

namespace Mentions

open Text

variable {m c : Char} {pos n : Nat} {b l r w x t : Text} {s : Span} {spans spans' : List Span}

/-! ## Moving a scan -/

/-- The span some places further to the right. -/
def Span.shift (n : Nat) (s : Span) : Span := ⟨s.start + n, s.stop + n, s.text⟩

@[simp] theorem Span.shift_start (n : Nat) (s : Span) : (s.shift n).start = s.start + n := rfl

@[simp] theorem Span.shift_stop (n : Nat) (s : Span) : (s.shift n).stop = s.stop + n := rfl

@[simp] theorem Span.shift_text (n : Nat) (s : Span) : (s.shift n).text = s.text := rfl

theorem Span.shift_shift (n k : Nat) (s : Span) : (s.shift n).shift k = s.shift (n + k) := by
  simp [Span.shift, Nat.add_assoc]

theorem map_shift_shift (n k : Nat) (spans : List Span) :
    (spans.map (Span.shift n)).map (Span.shift k) = spans.map (Span.shift (n + k)) := by
  rw [List.map_map]
  exact List.map_congr_left fun s _ => s.shift_shift n k

/-- The rules of the scan are the same wherever the text starts. -/
theorem Scans.shift (h : Scans m pos t spans) (n : Nat) :
    Scans m (pos + n) t (spans.map (Span.shift n)) := by
  induction h with
  | done => exact .done
  | pass hc _ ih =>
    refine .pass hc ?_
    rwa [Nat.add_right_comm]
  | @mention pos b t spans hb hr _ ih =>
    have hstop : pos + unitsOf m + units b + n = pos + n + unitsOf m + units b := by omega
    rw [List.map_cons, Span.shift, hstop]
    refine .mention hb hr ?_
    rwa [← hstop]

/-! ## Texts that fuse -/

/-- The text ends in a marker with nothing but body characters behind it. -/
def EndsOpen (m : Char) (l : Text) : Prop :=
  ∃ l₀ w, l = l₀ ++ m :: w ∧ ∀ c ∈ w, isBodyChar c = true

theorem EndsOpen.append_left (h : EndsOpen m x) (l : Text) : EndsOpen m (l ++ x) := by
  obtain ⟨l₀, w, rfl, hw⟩ := h
  exact ⟨l ++ l₀, w, (List.append_assoc _ _ _).symm, hw⟩

theorem not_endsOpen_nil : ¬EndsOpen m [] := by
  rintro ⟨l₀, w, h, -⟩
  cases l₀ <;> cases h

theorem endsOpen_cons_iff :
    EndsOpen m (c :: l) ↔ (c = m ∧ ∀ d ∈ l, isBodyChar d = true) ∨ EndsOpen m l := by
  constructor
  · rintro ⟨l₀, w, h, hw⟩
    cases l₀ with
    | nil =>
      obtain ⟨rfl, rfl⟩ := List.cons.inj h
      exact .inl ⟨rfl, hw⟩
    | cons d l₀ => exact .inr ⟨l₀, w, (List.cons.inj h).2, hw⟩
  · rintro (⟨rfl, hl⟩ | h)
    · exact ⟨[], l, rfl, hl⟩
    · exact h.append_left [c]

instance decidableEndsOpen (m : Char) : (l : Text) → Decidable (EndsOpen m l)
  | [] => .isFalse not_endsOpen_nil
  | c :: l =>
    have := decidableEndsOpen m l
    decidable_of_iff ((c = m ∧ l.all isBodyChar = true) ∨ EndsOpen m l) <| by
      rw [endsOpen_cons_iff, List.all_eq_true]

/-- The text starts with a body character. -/
def StartsWithBodyChar (r : Text) : Prop := ∃ c t, r = c :: t ∧ isBodyChar c = true

theorem not_startsWithBodyChar_nil : ¬StartsWithBodyChar [] := by
  rintro ⟨c, t, h, -⟩
  cases h

theorem startsWithBodyChar_cons_iff : StartsWithBodyChar (c :: t) ↔ isBodyChar c = true := by
  constructor
  · rintro ⟨d, u, h, hd⟩
    rwa [(List.cons.inj h).1]
  · intro hc
    exact ⟨c, t, rfl, hc⟩

instance : (r : Text) → Decidable (StartsWithBodyChar r)
  | [] => .isFalse not_startsWithBodyChar_nil
  | _ :: _ => decidable_of_iff _ startsWithBodyChar_cons_iff.symm

/-- What is not released starts with a body character. -/
theorem startsWithBodyChar_of_not_released (h : ¬Released r) : StartsWithBodyChar r := by
  cases r with
  | nil => exact absurd released_nil h
  | cons c t =>
    rw [startsWithBodyChar_cons_iff]
    cases hc : isBodyChar c with
    | true => rfl
    | false => exact absurd (released_cons hc) h

/-- The second text continues a marker or a mention that the first one ends in. -/
structure Fuses (m : Char) (l r : Text) : Prop where
  endsOpen : EndsOpen m l
  not_released : ¬Released r

theorem Fuses.append_left (h : Fuses m x r) (l : Text) : Fuses m (l ++ x) r :=
  ⟨h.endsOpen.append_left l, h.not_released⟩

/-- What is released behind a marker or a mention is so with a text behind it that does not fuse
with the whole. -/
theorem Released.append_of_not_fuses (ht : Released t) (hw : ∀ c ∈ w, isBodyChar c = true)
    (hf : ¬Fuses m (m :: (w ++ t)) r) : Released (t ++ r) := by
  refine ht.append fun hbody => Decidable.byContradiction fun hr => hf ⟨⟨[], w ++ t, rfl, ?_⟩, hr⟩
  exact List.forall_mem_append.2 ⟨hw, hbody⟩

/-- The scan of two texts that do not fuse goes on with the second where it ends with the first. -/
theorem Scans.append (h : Scans m pos l spans) (hf : ¬Fuses m l r)
    (hr : Scans m (pos + units l) r spans') : Scans m pos (l ++ r) (spans ++ spans') := by
  induction h with
  | done => exact hr
  | @pass pos c t spans hc _ ih =>
    refine .pass (fun hcm => ?_) (ih (fun h => hf (h.append_left [c])) ?_)
    · subst hcm
      exact (hc rfl).append_of_not_fuses (w := []) nofun hf
    · rwa [Nat.add_assoc, ← units_cons]
  | @mention pos b t spans hb ht _ ih =>
    have hu : pos + unitsOf m + units b + units t = pos + units (m :: (b ++ t)) := by
      simp only [units_cons, units_append]
      omega
    rw [List.cons_append, List.append_assoc, List.cons_append]
    refine .mention hb (ht.append_of_not_fuses hb.chars hf) ?_
    exact ih (fun h => hf (h.append_left (m :: b))) (by rwa [hu])

/-- The mentions of two texts that do not fuse. -/
theorem scan_append (hf : ¬Fuses m l r) :
    scan m (l ++ r) = scan m l ++ (scan m r).map (Span.shift (units l)) := by
  have hr := (scans_scan m r).shift (units l)
  exact ((scans_scan m l).append hf hr).scan_eq

/-- No mention reaches across a character that is neither the marker nor a body character. -/
theorem scan_append_cons (hc : isBodyChar c = false) (hcm : c ≠ m) :
    scan m (l ++ c :: r) = scan m l ++ (scan m r).map (Span.shift (units l + unitsOf c)) := by
  have hrest := (scans_scan m r).shift (units l + unitsOf c)
  rw [Nat.zero_add] at hrest
  refine ((scans_scan m l).append (fun hf => hf.not_released (released_cons hc)) ?_).scan_eq
  rw [Nat.zero_add]
  exact .pass (fun h => absurd h hcm) hrest

/-! ## Mentions at known places -/

/-- A mention ends behind its text. -/
theorem Span.stop_eq (hs : s ∈ scan m t) : s.stop = s.start + units s.text := by
  obtain ⟨l, b, r, -, -, -, rfl⟩ := exists_of_mem_scan hs
  simp only [units_cons, Nat.add_assoc]

/-- A mention is as long as its text. -/
theorem Span.length_eq (hs : s ∈ scan m t) : s.length = units s.text := by
  rw [Span.length, s.stop_eq hs, Nat.add_sub_cancel_left]

/-- A mention that starts behind a left part of the text begins the rest of it. -/
theorem exists_of_start_eq (hs : s ∈ scan m (l ++ t)) (h : s.start = units l) :
    ∃ b r, t = m :: (b ++ r) ∧ IsBody b ∧ Released r ∧
      s = ⟨units l, units l + unitsOf m + units b, m :: b⟩ := by
  obtain ⟨l', b, r, ht, hb, hr, rfl⟩ := exists_of_mem_scan hs
  obtain ⟨rfl, rfl⟩ := append_inj_of_units_eq ht h.symm
  exact ⟨b, r, rfl, hb, hr, rfl⟩

/-- A mention that ends with a left part of the text ends this part, and the rest is released. -/
theorem exists_of_stop_eq (hs : s ∈ scan m (l ++ r)) (h : s.stop = units l) :
    ∃ l₀ b, l = l₀ ++ m :: b ∧ IsBody b ∧ Released r ∧
      s = ⟨units l₀, units l₀ + unitsOf m + units b, m :: b⟩ := by
  obtain ⟨l₀, b, r', ht, hb, hr, rfl⟩ := exists_of_mem_scan hs
  have hjoin : (l₀ ++ m :: b) ++ r' = l ++ r := by
    rw [List.append_assoc, List.cons_append, ht]
  have hlen : units (l₀ ++ m :: b) = units l := by
    rw [← h]
    simp [Nat.add_assoc]
  obtain ⟨rfl, rfl⟩ := append_inj_of_units_eq hjoin hlen
  exact ⟨l₀, b, rfl, hb, hr, rfl⟩

/-- No mention ends behind a character that may not end a body. -/
theorem Span.stop_ne_of_isWordChar_eq_false (hs : s ∈ scan m (l ++ c :: r))
    (hc : isWordChar c = false) : s.stop ≠ units l + unitsOf c := by
  intro h
  have hunits : units (l ++ [c]) = units l + unitsOf c := units_append _ _
  rw [← List.singleton_append, ← List.append_assoc] at hs
  obtain ⟨l₀, b, hl, hb, -, -⟩ := exists_of_stop_eq hs (h.trans hunits.symm)
  obtain ⟨b', d, rfl, hd⟩ := hb.exists_concat
  rw [← List.cons_append, ← List.append_assoc] at hl
  obtain rfl : c = d := List.singleton_inj.1 (List.append_inj' hl rfl).2
  rw [hc] at hd
  cases hd

/-- The mentions before a mention, that mention, and those after it. -/
theorem scan_append_mention (hm : isBodyChar m = false) (hb : IsBody b) (hr : Released r) :
    scan m (l ++ m :: (b ++ r)) =
      scan m l ++ ⟨units l, units l + unitsOf m + units b, m :: b⟩ ::
        (scan m r).map (Span.shift (units l + unitsOf m + units b)) := by
  have hf : ¬Fuses m l (m :: (b ++ r)) := fun h => h.not_released (released_cons hm)
  have hrest := (scans_scan m r).shift (units l + unitsOf m + units b)
  rw [Nat.zero_add] at hrest
  have hl := scans_scan m l
  refine (hl.append hf ?_).scan_eq
  rw [Nat.zero_add]
  exact .mention hb hr hrest

/-- A mention is listed exactly if the text behind it adds nothing to it. -/
theorem mem_scan_append_iff (hm : isBodyChar m = false) (hb : IsBody b) :
    ⟨units l, units l + unitsOf m + units b, m :: b⟩ ∈ scan m (l ++ m :: (b ++ r)) ↔
      Released r := by
  constructor
  · intro hs
    obtain ⟨b', r', ht, -, hr', hspan⟩ := exists_of_start_eq hs rfl
    obtain ⟨-, -, htext⟩ := Span.mk.inj hspan
    obtain rfl := List.cons.inj htext |>.2
    rw [List.append_cancel_left (List.cons.inj ht).2]
    exact hr'
  · intro hr
    rw [scan_append_mention hm hb hr]
    exact List.mem_append_right _ List.mem_cons_self

/-! ## The place where two texts meet -/

/-- Of two texts that fuse, a mention contains the end of the first and the start of the second. -/
theorem Fuses.exists_interior (hm : isBodyChar m = false) (h : Fuses m l r) :
    ∃ s ∈ scan m (l ++ r), s.interior (units l) = true := by
  obtain ⟨⟨l₀, w, rfl, hw⟩, hr⟩ := h
  obtain ⟨r', hsplit, hr'⟩ := exists_body_append (w ++ r)
  have hne : body (w ++ r) ≠ [] := fun h0 => hr ((body_eq_nil_iff.1 h0).of_append_right hw)
  have hlong : units w < units (body (w ++ r)) := by
    refine Nat.lt_of_not_le fun hle => hr ?_
    obtain ⟨x, hx, rfl⟩ := append_of_le hsplit.symm hle
    refine hr'.of_append_right fun c hc => hw c ?_
    rw [hx]
    exact List.mem_append_right _ hc
  have hs := (mem_scan_append_iff (l := l₀) hm (isBody_body hne)).2 hr'
  rw [← hsplit] at hs
  refine ⟨_, by simpa using hs, Span.interior_iff.2 ?_⟩
  have hpos := unitsOf_pos m
  simp only [units_append, units_cons]
  omega

/-- Where each mention is one of the two texts, the place where they meet is legal. -/
theorem legal_of_scan_append_eq
    (h : scan m (l ++ r) = scan m l ++ (scan m r).map (Span.shift (units l))) :
    Legal m (l ++ r) (units l) := by
  refine ⟨addressable_append l r, fun s hs => ?_⟩
  rw [h] at hs
  rw [Span.interior_eq_false_iff]
  rcases List.mem_append.1 hs with hs | hs
  · exact .inr (s.addressable_stop hs).le
  · obtain ⟨s, -, rfl⟩ := List.mem_map.1 hs
    exact .inl (Nat.le_add_left _ _)

/-- The place where two texts meet is legal exactly if they do not fuse. -/
theorem legal_append_iff (hm : isBodyChar m = false) :
    Legal m (l ++ r) (units l) ↔ ¬Fuses m l r := by
  constructor
  · intro hlegal hf
    obtain ⟨s, hs, hi⟩ := hf.exists_interior hm
    rw [hlegal.2 s hs] at hi
    cases hi
  · intro hf
    exact legal_of_scan_append_eq (scan_append hf)

/-- Each mention is one of the two texts exactly if they do not fuse. -/
theorem scan_append_iff (hm : isBodyChar m = false) :
    scan m (l ++ r) = scan m l ++ (scan m r).map (Span.shift (units l)) ↔ ¬Fuses m l r :=
  ⟨fun h => (legal_append_iff hm).1 (legal_of_scan_append_eq h), scan_append⟩

/-- **Scanning is local.** Unless the first text ends in a marker with nothing but body characters
behind it and the second one starts with a body character, the mentions of the two joined are those
of the first and then, moved by its length, those of the second. They are not exactly if the first
text ends so and the second one is not released: then a mention lies across the seam. -/
theorem scan_distributes_over_append (m : Char) (x y : Text) (hm : isBodyChar m = false) :
    (¬(EndsOpen m x ∧ StartsWithBodyChar y) →
      scan m (x ++ y) = scan m x ++ (scan m y).map (Span.shift (units x))) ∧
    (scan m (x ++ y) = scan m x ++ (scan m y).map (Span.shift (units x)) ↔
      ¬(EndsOpen m x ∧ ¬Released y)) := by
  constructor
  · intro hseam
    refine scan_append fun hf => hseam ⟨hf.endsOpen, ?_⟩
    exact startsWithBodyChar_of_not_released hf.not_released
  · rw [scan_append_iff hm]
    exact not_congr ⟨fun hf => ⟨hf.endsOpen, hf.not_released⟩, fun h => ⟨h.1, h.2⟩⟩

/-- A mention whose full stop stands at the seam, before a character of two units. -/
theorem scan_distributes_over_append_astral :
    isBodyChar '@' = false ∧ EndsOpen '@' "é @al.".toList ∧
    ¬(EndsOpen '@' "é @al.".toList ∧ StartsWithBodyChar "😀@b-".toList) ∧
    scan '@' "é @al.".toList = [⟨2, 5, "@al".toList⟩] ∧
    scan '@' "😀@b-".toList = [⟨2, 4, "@b".toList⟩] ∧
    scan '@' ("é @al.".toList ++ "😀@b-".toList) =
      [⟨2, 5, "@al".toList⟩, ⟨8, 10, "@b".toList⟩] := by
  have hm : isBodyChar '@' = false := by decide
  have hseam : ¬(EndsOpen '@' "é @al.".toList ∧ StartsWithBodyChar "😀@b-".toList) := by decide
  have hx : scan '@' "é @al.".toList = [⟨2, 5, "@al".toList⟩] := by decide
  have hy : scan '@' "😀@b-".toList = [⟨2, 4, "@b".toList⟩] := by decide
  have h := (scan_distributes_over_append '@' "é @al.".toList "😀@b-".toList hm).1 hseam
  rw [hx, hy] at h
  exact ⟨hm, by decide, hseam, hx, hy, h⟩

end Mentions
