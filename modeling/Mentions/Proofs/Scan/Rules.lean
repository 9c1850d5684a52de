import Mentions.Proofs.Body
import Mentions.Scan

/-!
# The rules of a scan

`Scans m pos t spans` says by rules what the scan of a text lists, where the text starts at offset
`pos`: a marker with a body and a released rest is a mention, and every other character is passed
over, a marker only if the text after it is released. The rules are `scanFrom` exactly
(`scans_iff`), so what holds of the mentions of a buffer is proved by induction on them.

Main statements, each by such an induction: a listed span is a mention where it says that it is
(`Scans.exists_append`), the spans follow each other (`Scans.pairwise`), and every marker with a
body is covered by one of them (`Scans.exists_mem`).
-/

namespace Mentions

open Text

variable {m : Char} {pos : Nat} {b l r t : Text} {s : Span} {spans : List Span}

/-- What the scan of a text that starts at offset `pos` lists. -/
inductive Scans (m : Char) : Nat → Text → List Span → Prop
  /-- Nothing is left. -/
  | done {pos : Nat} : Scans m pos [] []
  /-- A character that starts no mention is passed over. -/
  | pass {pos : Nat} {c : Char} {t : Text} {spans : List Span} (hc : c = m → Released t)
      (ht : Scans m (pos + unitsOf c) t spans) : Scans m pos (c :: t) spans
  /-- A mention is listed, and the scan goes on after it. -/
  | mention {pos : Nat} {b t : Text} {spans : List Span} (hb : IsBody b) (hr : Released t)
      (ht : Scans m (pos + unitsOf m + units b) t spans) :
      Scans m pos (m :: (b ++ t)) (⟨pos, pos + unitsOf m + units b, m :: b⟩ :: spans)

/-! ## The rules and the function -/

/-- The characters of a body that has been listed are passed over. -/
theorem scanFrom_length_append (m : Char) (pos : Nat) (b t : Text) :
    scanFrom m pos b.length (b ++ t) = scanFrom m (pos + units b) 0 t := by
  induction b generalizing pos with
  | nil => rfl
  | cons c b ih =>
    rw [List.cons_append, List.length_cons, scanFrom, ih, units_cons, Nat.add_assoc]

/-- The scan passes over a character that starts no mention. -/
theorem scanFrom_cons_of_released {c : Char} (hc : c = m → Released t) :
    scanFrom m pos 0 (c :: t) = scanFrom m (pos + unitsOf c) 0 t := by
  by_cases h : c = m
  · simp [scanFrom, h, body_eq_nil_iff.2 (hc h)]
  · simp [scanFrom, h]

/-- The scan lists a mention and goes on after it. -/
theorem scanFrom_cons_append (hb : IsBody b) (hr : Released t) :
    scanFrom m pos 0 (m :: (b ++ t)) =
      ⟨pos, pos + unitsOf m + units b, m :: b⟩ ::
        scanFrom m (pos + unitsOf m + units b) 0 t := by
  obtain ⟨d, b', rfl⟩ := List.exists_cons_of_ne_nil hb.ne_nil
  have hbody := body_append hb hr
  simp only [scanFrom, if_pos]
  rw [hbody]
  simp only [scanFrom_length_append]

/-- The scan keeps the rules. -/
theorem scans_scanFrom (m : Char) (pos : Nat) (t : Text) : Scans m pos t (scanFrom m pos 0 t) := by
  -- a mention is longer than one character, so the induction is on the length of the text
  induction hn : t.length using Nat.strongRecOn generalizing pos t with
  | ind n ih =>
    subst hn
    cases t with
    | nil => exact .done
    | cons c t =>
      by_cases h : c = m ∧ body t ≠ []
      · obtain ⟨rfl, hne⟩ := h
        obtain ⟨r, ht, hr⟩ := exists_body_append t
        have hlt : r.length < (c :: t).length := by
          rw [ht, List.length_cons, List.length_append]
          omega
        rw [ht, scanFrom_cons_append (isBody_body hne) hr]
        exact .mention (isBody_body hne) hr (ih _ hlt _ r rfl)
      · have hc : c = m → Released t := fun hm =>
          body_eq_nil_iff.1 (Decidable.not_not.1 fun hb => h ⟨hm, hb⟩)
        rw [scanFrom_cons_of_released hc]
        exact .pass hc (ih _ (Nat.lt_succ_self t.length) _ t rfl)

/-- The rules leave no choice. -/
theorem scans_iff : Scans m pos t spans ↔ scanFrom m pos 0 t = spans := by
  constructor
  · intro h
    induction h with
    | done => rfl
    | pass hc _ ih => rw [scanFrom_cons_of_released hc, ih]
    | mention hb hr _ ih => rw [scanFrom_cons_append hb hr, ih]
  · rintro rfl
    exact scans_scanFrom m pos t

theorem scans_scan (m : Char) (buffer : Text) : Scans m 0 buffer (scan m buffer) :=
  scans_scanFrom m 0 buffer

theorem Scans.scan_eq (h : Scans m 0 t spans) : scan m t = spans := scans_iff.1 h

/-- A text without a marker is passed over. -/
theorem Scans.append_left (hl : ∀ c ∈ l, c ≠ m) (h : Scans m (pos + units l) t spans) :
    Scans m pos (l ++ t) spans := by
  induction l generalizing pos with
  | nil => simpa using h
  | cons c l ih =>
    obtain ⟨hc, hl⟩ := List.forall_mem_cons.1 hl
    rw [units_cons, ← Nat.add_assoc] at h
    exact .pass (fun hm => absurd hm hc) (ih hl h)

/-- Nothing is listed where no marker is left. -/
theorem scanFrom_of_not_mem (ht : m ∉ t) : scanFrom m pos 0 t = [] := by
  have hdone : Scans m pos (t ++ []) [] :=
    .append_left (fun _ hc => ne_of_mem_of_not_mem hc ht) .done
  rw [List.append_nil] at hdone
  exact scans_iff.1 hdone

/-! ## What is listed -/

/-- A listed span is a mention of the text, and stands where it says. -/
theorem Scans.exists_append (h : Scans m pos t spans) (hs : s ∈ spans) :
    ∃ l b r, t = l ++ m :: (b ++ r) ∧ IsBody b ∧ Released r ∧
      s = ⟨pos + units l, pos + units l + unitsOf m + units b, m :: b⟩ := by
  induction h with
  | done => cases hs
  | @pass pos c t spans _ _ ih =>
    obtain ⟨l, b, r, rfl, hb, hr, rfl⟩ := ih hs
    refine ⟨c :: l, b, r, rfl, hb, hr, ?_⟩
    simp only [units_cons, Span.mk.injEq, and_true]
    omega
  | @mention pos b t spans hb hr _ ih =>
    rcases List.mem_cons.1 hs with rfl | hs
    · exact ⟨[], b, t, rfl, hb, hr, rfl⟩
    · obtain ⟨l, b', r, rfl, hb', hr', rfl⟩ := ih hs
      refine ⟨m :: (b ++ l), b', r, by simp, hb', hr', ?_⟩
      simp only [units_cons, units_append, Span.mk.injEq, and_true]
      omega

/-- A text of which a span is listed is the text before the first one, that mention and the text
behind it, where the scan goes on. -/
theorem Scans.exists_eq_of_cons (h : Scans m pos t (s :: spans)) :
    ∃ g b r, t = g ++ m :: (b ++ r) ∧ IsBody b ∧
      s = ⟨pos + units g, pos + units g + unitsOf m + units b, m :: b⟩ ∧
      Scans m (pos + units g + unitsOf m + units b) r spans := by
  generalize hlist : s :: spans = list at h
  induction h with
  | done => cases hlist
  | @pass pos c t list _ _ ih =>
    obtain ⟨g, b, r, rfl, hb, rfl, hr⟩ := ih hlist
    refine ⟨c :: g, b, r, rfl, hb, ?_, ?_⟩
    · rw [units_cons, ← Nat.add_assoc]
    · rwa [units_cons, ← Nat.add_assoc]
  | @mention pos b t list hb _ ht _ =>
    obtain ⟨rfl, rfl⟩ := List.cons.inj hlist
    exact ⟨[], b, t, rfl, hb, rfl, ht⟩

/-- No listed span starts before the text. -/
theorem Scans.le_start (h : Scans m pos t spans) (hs : s ∈ spans) : pos ≤ s.start := by
  obtain ⟨l, b, r, -, -, -, rfl⟩ := h.exists_append hs
  exact Nat.le_add_right pos (units l)

/-- No more spans are listed than the text has characters. -/
theorem Scans.length_le (h : Scans m pos t spans) : spans.length ≤ t.length := by
  induction h with
  | done => exact Nat.le_refl 0
  | pass _ _ ih => exact Nat.le_succ_of_le ih
  | mention _ _ _ ih =>
    rw [List.length_cons, List.length_cons, List.length_append]
    omega

/-- Each listed span ends before the next one starts. -/
theorem Scans.pairwise (h : Scans m pos t spans) :
    spans.Pairwise fun s s' => s.stop ≤ s'.start := by
  induction h with
  | done => exact .nil
  | pass _ _ ih => exact ih
  | mention _ _ ht ih => exact .cons (fun s' hs' => ht.le_start hs') ih

/-- Every marker with a body after it is covered by a listed span. -/
theorem Scans.exists_mem (h : Scans m pos t spans) (ht : t = l ++ m :: (b ++ r)) (hb : IsBody b) :
    ∃ s ∈ spans, s.start ≤ pos + units l ∧ pos + units l + unitsOf m ≤ s.stop := by
  induction h generalizing l with
  | done => simp at ht
  | @pass pos c t spans hc _ ih =>
    cases l with
    | nil =>
      obtain ⟨rfl, rfl⟩ := List.cons.inj ht
      exact absurd (hc rfl) hb.not_released
    | cons d l =>
      obtain ⟨rfl, rfl⟩ := List.cons.inj ht
      obtain ⟨s, hs, h1, h2⟩ := ih rfl
      refine ⟨s, hs, ?_⟩
      rw [units_cons]
      omega
  | @mention pos b' t spans hb' _ _ ih =>
    cases l with
    | nil => exact ⟨_, List.mem_cons_self, Nat.le_refl pos, by simp⟩
    | cons d l =>
      obtain ⟨rfl, hrest⟩ := List.cons.inj ht
      -- the marker stands in the body of this mention or after it
      rcases Nat.lt_or_ge (units l) (units b') with hlt | hge
      · obtain ⟨e, x, rfl, he⟩ := append_of_lt hrest.symm hlt
        obtain ⟨rfl, -⟩ := List.cons.inj he
        refine ⟨_, List.mem_cons_self, ?_⟩
        simp only [units_cons, units_append]
        omega
      · obtain ⟨x, rfl, rfl⟩ := append_of_le hrest hge
        obtain ⟨s, hs, h1, h2⟩ := ih rfl
        refine ⟨s, List.mem_cons_of_mem _ hs, ?_⟩
        simp only [units_cons, units_append]
        omega

end Mentions
