import Mentions.Proofs.Growth.Separate
import Mentions.Proofs.Scan.Rules

/-!
# Scanning a separated text

A repair keeps a shorter mention of some of the mentions and cuts them behind it. `kept?` is what it
keeps of a span that it cuts, so that `cutAfter?` is where it cuts, and `afterCuts` lists the spans
that are wanted: each one is moved by the separators before it, and one that is cut has the kept
text. Where the separators go can be said for any marker (`exists_separated`).

`Repaired` says of a text that it is the separated one and that its scan lists the wanted spans.
It is built along the rules of the scan, one lemma for each: a character that is passed over
(`Repaired.pass`), a mention that stays whole (`Repaired.whole`) and one that is cut
(`Repaired.cut`). The rest of a mention that has been cut holds no marker and a separator ends the
body before it, so nothing there is listed; and a text keeps the body characters at its head, so
what was released before is released still. `repaired_separate` sums this up.
-/

namespace Mentions

open Text

/-- A span moved to the right, with the text that is kept of it. -/
def Span.keeping (s : Span) (shift : Nat) (text : Text) : Span :=
  ⟨s.start + shift, s.start + shift + units text, text⟩

theorem Span.keeping_cons (s : Span) (shift : Nat) (m : Char) (b : Text) :
    s.keeping shift (m :: b) =
      ⟨s.start + shift, s.start + shift + unitsOf m + units b, m :: b⟩ := by
  simp [Span.keeping, Nat.add_assoc]

/-- It is as long as the text that is kept. -/
theorem Span.length_keeping (s : Span) (shift : Nat) (text : Text) :
    (s.keeping shift text).length = units text :=
  Nat.add_sub_cancel_left _ _

namespace Growth

variable {m : Char} {sep b r k t t' : Text} {kept? : Span → Option Text} {pos shift : Nat}
  {s : Span} {spans : List Span}

/-- Where a span is cut, if something shorter is kept of it. -/
def cutAfter? (kept? : Span → Option Text) (s : Span) : Option Nat :=
  (kept? s).map fun k => s.start + units k

/-- The spans after the cuts, if a separator has the given width. -/
def afterCuts (kept? : Span → Option Text) (width : Nat) : (shift : Nat) → List Span → List Span
  | _, [] => []
  | shift, s :: spans =>
    match kept? s with
    | some k => s.keeping shift k :: afterCuts kept? width (shift + width) spans
    | none => s.keeping shift s.text :: afterCuts kept? width shift spans

theorem afterCuts_cons_of_some {width : Nat} (h : kept? s = some k) :
    afterCuts kept? width shift (s :: spans) =
      s.keeping shift k :: afterCuts kept? width (shift + width) spans := by
  rw [afterCuts, h]

theorem afterCuts_cons_of_none {width : Nat} (h : kept? s = none) :
    afterCuts kept? width shift (s :: spans) =
      s.keeping shift s.text :: afterCuts kept? width shift spans := by
  rw [afterCuts, h]

/-- What is kept of a span is a mention at its head. -/
def KeepsMention (m : Char) (kept? : Span → Option Text) (s : Span) : Prop :=
  ∀ k, kept? s = some k → ∃ b r, k = m :: b ∧ IsBody b ∧ s.text = m :: (b ++ r)

/-- The separators behind a mention of which everything is kept. -/
theorem Separated.whole (hk : kept? ⟨pos, pos + unitsOf m + units b, m :: b⟩ = none)
    (h : Separated sep (pos + unitsOf m + units b) t (spans.filterMap (cutAfter? kept?)) t') :
    Separated sep pos (m :: (b ++ t))
      ((⟨pos, pos + unitsOf m + units b, m :: b⟩ :: spans).filterMap (cutAfter? kept?))
      (m :: (b ++ t')) := by
  rw [List.filterMap_cons_none (by rw [cutAfter?, hk]; rfl)]
  refine Separated.append_left (l := m :: b) ?_
  rw [units_cons, ← Nat.add_assoc]
  exact h

/-- A separator behind what is kept of a mention, and those behind the mention. -/
theorem Separated.kept
    (hk : kept? ⟨pos, pos + unitsOf m + units (b ++ r), m :: (b ++ r)⟩ = some (m :: b))
    (h : Separated sep (pos + unitsOf m + units (b ++ r)) t (spans.filterMap (cutAfter? kept?))
      t') :
    Separated sep pos (m :: (b ++ r ++ t))
      ((⟨pos, pos + unitsOf m + units (b ++ r), m :: (b ++ r)⟩ :: spans).filterMap
        (cutAfter? kept?))
      (m :: (b ++ (sep ++ (r ++ t')))) := by
  have hcut : cutAfter? kept? ⟨pos, pos + unitsOf m + units (b ++ r), m :: (b ++ r)⟩ =
      some (pos + units (m :: b)) := by
    rw [cutAfter?, hk]
    rfl
  rw [List.filterMap_cons_some hcut, List.append_assoc]
  refine Separated.cut (l := m :: b) (Separated.append_left ?_)
  have hu : pos + units (m :: b) + units r = pos + unitsOf m + units (b ++ r) := by
    simp [Nat.add_assoc]
  rw [hu]
  exact h

/-- Any text can be separated behind what is kept of its mentions, whatever the marker is. -/
theorem exists_separated (h : Scans m pos t spans) (hk : ∀ s ∈ spans, KeepsMention m kept? s)
    (sep : Text) : ∃ t', Separated sep pos t (spans.filterMap (cutAfter? kept?)) t' := by
  induction h with
  | done => exact ⟨[], .done⟩
  | @pass pos c t spans _ _ ih =>
    obtain ⟨t', ht'⟩ := ih hk
    exact ⟨c :: t', ht'.append_left (l := [c])⟩
  | @mention pos b t spans _ _ _ ih =>
    obtain ⟨hks, hkspans⟩ := List.forall_mem_cons.1 hk
    obtain ⟨t', ht'⟩ := ih hkspans
    cases hkeep : kept? ⟨pos, pos + unitsOf m + units b, m :: b⟩ with
    | none => exact ⟨_, ht'.whole hkeep⟩
    | some k =>
      obtain ⟨b₀, r, rfl, -, htext⟩ := hks k hkeep
      obtain rfl : b = b₀ ++ r := (List.cons.inj htext).2
      exact ⟨_, ht'.kept hkeep⟩

/-- The text `t'` is the text `t` from offset `pos` on with its mentions cut, and the scan of it
lists what is wanted, `shift` places further to the right. -/
structure Repaired (m : Char) (sep : Text) (kept? : Span → Option Text) (pos : Nat) (t : Text)
    (spans : List Span) (shift : Nat) (t' : Text) : Prop where
  separated : Separated sep pos t (spans.filterMap (cutAfter? kept?)) t'
  head : t'.takeWhile isBodyChar = t.takeWhile isBodyChar
  scans : Scans m (pos + shift) t' (afterCuts kept? (units sep) shift spans)

/-- A character that is passed over stays, and is passed over again. -/
theorem Repaired.pass {c : Char} (hc : c = m → Released t)
    (h : Repaired m sep kept? (pos + unitsOf c) t spans shift t') :
    Repaired m sep kept? pos (c :: t) spans shift (c :: t') where
  separated := h.separated.append_left (l := [c])
  head := by rw [List.takeWhile_cons, List.takeWhile_cons, h.head]
  scans := by
    refine .pass (fun hm => (hc hm).of_takeWhile_eq h.head) ?_
    rw [Nat.add_right_comm]
    exact h.scans

/-- A mention of which everything is kept stays, and is listed again. -/
theorem Repaired.whole (hm : isBodyChar m = false) (hb : IsBody b) (hr : Released t)
    (hk : kept? ⟨pos, pos + unitsOf m + units b, m :: b⟩ = none)
    (h : Repaired m sep kept? (pos + unitsOf m + units b) t spans shift t') :
    Repaired m sep kept? pos (m :: (b ++ t)) (⟨pos, pos + unitsOf m + units b, m :: b⟩ :: spans)
      shift (m :: (b ++ t')) where
  separated := h.separated.whole hk
  head := by simp [hm]
  scans := by
    have hscans := h.scans
    rw [afterCuts_cons_of_none hk, Span.keeping_cons]
    refine .mention hb (hr.of_takeWhile_eq h.head) ?_
    rw [Nat.add_right_comm _ (units b), Nat.add_right_comm pos] at hscans
    exact hscans

/-- A mention that is cut is listed up to the cut, and nothing of its rest is. -/
theorem Repaired.cut (hm : isBodyChar m = false) (hz : isZeroWidth m = false)
    (hsep : IsSeparator sep) (hb : IsBody b) (hr : ∀ c ∈ r, isBodyChar c = true)
    (hk : kept? ⟨pos, pos + unitsOf m + units (b ++ r), m :: (b ++ r)⟩ = some (m :: b))
    (h : Repaired m sep kept? (pos + unitsOf m + units (b ++ r)) t spans (shift + units sep) t') :
    Repaired m sep kept? pos (m :: (b ++ r ++ t))
      (⟨pos, pos + unitsOf m + units (b ++ r), m :: (b ++ r)⟩ :: spans)
      shift (m :: (b ++ (sep ++ (r ++ t')))) where
  separated := h.separated.kept hk
  head := by simp [hm]
  scans := by
    -- the marker is neither invisible nor a body character
    have hnone : ∀ c ∈ sep ++ r, c ≠ m := by
      rintro c hc rfl
      rcases List.mem_append.1 hc with hc | hc
      · rw [hsep.chars c hc] at hz
        cases hz
      · rw [hr c hc] at hm
        cases hm
    have hu : pos + shift + unitsOf m + units b + units (sep ++ r) =
        pos + unitsOf m + units (b ++ r) + (shift + units sep) := by
      simp only [units_append]
      omega
    rw [afterCuts_cons_of_some hk, Span.keeping_cons]
    refine .mention hb (hsep.released _) ?_
    rw [← List.append_assoc]
    refine Scans.append_left hnone ?_
    rw [hu]
    exact h.scans

/-- Any text can be repaired, if what is kept of its mentions are mentions. -/
theorem exists_repaired (hm : isBodyChar m = false) (hz : isZeroWidth m = false)
    (hsep : IsSeparator sep) (h : Scans m pos t spans) (hk : ∀ s ∈ spans, KeepsMention m kept? s)
    (shift : Nat) : ∃ t', Repaired m sep kept? pos t spans shift t' := by
  induction h generalizing shift with
  | done => exact ⟨[], .done, rfl, .done⟩
  | pass hc _ ih =>
    obtain ⟨t', ht'⟩ := ih hk shift
    exact ⟨_, ht'.pass hc⟩
  | @mention pos b t spans hb hr _ ih =>
    obtain ⟨hks, hkspans⟩ := List.forall_mem_cons.1 hk
    cases hkeep : kept? ⟨pos, pos + unitsOf m + units b, m :: b⟩ with
    | none =>
      obtain ⟨t', ht'⟩ := ih hkspans shift
      exact ⟨_, ht'.whole hm hb hr hkeep⟩
    | some k =>
      obtain ⟨b₀, r, rfl, hb₀, htext⟩ := hks k hkeep
      obtain rfl : b = b₀ ++ r := (List.cons.inj htext).2
      obtain ⟨t', ht'⟩ := ih hkspans (shift + units sep)
      have hrest : ∀ c ∈ r, isBodyChar c = true := fun c hc => hb.chars c (by simp [hc])
      exact ⟨_, ht'.cut hm hz hsep hb₀ hrest hkeep⟩

/-- The text that `separate` makes of a buffer is the repaired one. -/
theorem repaired_separate (hm : isBodyChar m = false) (hz : isZeroWidth m = false)
    (hsep : IsSeparator sep) (hk : ∀ s ∈ scan m t, KeepsMention m kept? s) :
    Repaired m sep kept? 0 t (scan m t) 0
      (separate sep t ((scan m t).filterMap (cutAfter? kept?))) := by
  obtain ⟨t', ht'⟩ := exists_repaired hm hz hsep (scans_scan m t) hk 0
  rw [ht'.separated.separate_eq]
  exact ht'

/-! ## The spans that are wanted -/

/-- No span is lost, and none is added. -/
theorem length_afterCuts (kept? : Span → Option Text) (width shift : Nat) (spans : List Span) :
    (afterCuts kept? width shift spans).length = spans.length := by
  induction spans generalizing shift with
  | nil => rfl
  | cons s spans ih =>
    cases hk : kept? s with
    | none => simp [afterCuts_cons_of_none hk, ih]
    | some k => simp [afterCuts_cons_of_some hk, ih]

/-- Each span is as long as what is kept of it. -/
theorem map_length_afterCuts (kept? : Span → Option Text) (width shift : Nat)
    (spans : List Span) :
    (afterCuts kept? width shift spans).map Span.length =
      spans.map fun s => units ((kept? s).getD s.text) := by
  induction spans generalizing shift with
  | nil => rfl
  | cons s spans ih =>
    cases hk : kept? s with
    | none => simp [afterCuts_cons_of_none hk, Span.length_keeping, hk, ih]
    | some k => simp [afterCuts_cons_of_some hk, Span.length_keeping, hk, ih]

/-- Each span is moved by the separators before it. -/
theorem getElem?_afterCuts (kept? : Span → Option Text) (width shift : Nat) (spans : List Span)
    (i : Nat) :
    (afterCuts kept? width shift spans)[i]? = spans[i]?.map fun s =>
      s.keeping (shift + width * (spans.take i).countP fun s => (kept? s).isSome)
        ((kept? s).getD s.text) := by
  induction spans generalizing shift i with
  | nil => rfl
  | cons s spans ih =>
    cases hk : kept? s with
    | none =>
      rw [afterCuts_cons_of_none hk]
      cases i with
      | zero => simp [hk]
      | succ i => simp [ih, hk]
    | some k =>
      rw [afterCuts_cons_of_some hk]
      cases i with
      | zero => simp [hk]
      | succ i =>
        have hcount (n : Nat) : shift + width + width * n = shift + width * (n + 1) := by
          rw [Nat.mul_succ]
          omega
        simp [ih, hk, hcount]

end Growth

end Mentions
