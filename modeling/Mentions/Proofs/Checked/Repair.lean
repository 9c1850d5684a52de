import Mentions.Proofs.Checked.Scan
import Mentions.Proofs.Growth.Baseline
import Mentions.Proofs.Growth.Shape
import Mentions.Proofs.Scan.Append

/-!
# Repairs, checked

A repair adds up where mentions have to be cut, and then puts the separators in, from the right to
the left. Each separator goes to an offset that is known to address a place, although the text has
changed since the offset was found.

The sums are right because a cut lies within a mention, behind the part of it that is kept
(`grownCut_eq`, `shapeCut_eq`). The separators can be put in because the cuts are places of the
buffer in increasing order, for any marker (`exists_separated`): what stands before a cut is as it
was when the separators behind it are in (`separate_eq`). No length overflows on the way, since each
text on the way is shorter than the one that comes out.
-/

namespace Mentions.Checked

open Text Growth

variable {m : Char} {l t t' x y sep : Text} {pos : Nat} {s : Span} {spans olds : List Span}
  {places : List Nat} {previous? : Option Text} {config : Config}

/-! ## Where mentions are cut -/

/-- The end of the old mention at the start of a mention that has grown from it. Lengths are
compared in bytes. -/
def grownCut (previous : List Span) (now : Span) : Checked (Option Nat) :=
  match Span.startingAt? previous now.start with
  | some before =>
    if bytes before.text < bytes now.text && before.text.isPrefixOf now.text then do
      return some (← add now.start (← countUnits before.text))
    else return none
  | none => return none

/-- The place up to which a suspicious mention is within the length limit. -/
def shapeCut (config : Config) (s : Span) : Checked (Option Nat) := do
  let length ← sub s.stop s.start
  if s.username.any isBlankChar || s.username.any (fun c => !isBodyChar c)
      || config.maxLength < length then
    let width := unitsOf config.marker
    let kept ← bodyLength s.username (config.maxLength - width)
    let cut ← add (← add s.start width) kept
    return if 0 < kept && cut < s.stop then some cut else none
  else return none

/-- Where a buffer has to be cut, given the buffer before the edit if it is known. -/
def cuts (config : Config) (buffer : Text) (previous? : Option Text) : Checked (List Nat) := do
  let spans ← scan config.marker buffer
  match previous? with
  | some previous => spans.filterMapM (grownCut (← scan config.marker previous))
  | none => spans.filterMapM (shapeCut config)

/-- A text is longer than its beginning in bytes if it is so in characters. -/
theorem bytes_lt_iff (h : x <+: y) : bytes x < bytes y ↔ x.length < y.length := by
  obtain ⟨z, rfl⟩ := h
  rw [bytes_append, List.length_append]
  cases z with
  | nil =>
    rw [bytes_nil, List.length_nil]
    omega
  | cons c z =>
    have hpos := c.utf8Size_pos
    rw [bytes_cons, List.length_cons]
    omega

theorem grownCut_eq (h : Fits t) (hs : s ∈ Mentions.scan m t) (olds : List Span) :
    grownCut olds s = pure (grownCut? olds s) := by
  rw [grownCut, grownCut?]
  cases Span.startingAt? olds s.start with
  | none => rfl
  | some before =>
    by_cases hprefix : before.text <+: s.text
    · have hgrown : (bytes before.text < bytes s.text && before.text.isPrefixOf s.text) =
          (before.text.length < s.text.length && before.text.isPrefixOf s.text) := by
        rw [decide_eq_decide.2 (bytes_lt_iff hprefix)]
      -- the old mention begins the new one, which ends within the buffer
      obtain ⟨rest, hrest⟩ := hprefix
      have hstop : s.start + units before.text ≤ maxOffset := by
        have hunits := h.units_le
        have hle := (s.addressable_stop hs).le
        rw [s.stop_eq hs, ← hrest, units_append] at hle
        omega
      simp only [hgrown]
      rw [countUnits_eq (by omega), pure_bind, add_eq hstop]
      split <;> rfl
    · have hfalse : before.text.isPrefixOf s.text = false :=
        Bool.eq_false_iff.2 fun hp => hprefix (List.isPrefixOf_iff_prefix.1 hp)
      simp only [hfalse, Bool.and_false]
      rfl

theorem shapeCut_eq (h : Fits t) (hs : s ∈ Mentions.scan config.marker t) :
    shapeCut config s = pure (shapeCut? config s) := by
  obtain ⟨-, hb, hlength, hstop⟩ := s.exists_username hs
  -- what is kept is a part of the mention
  have hkept : Mentions.bodyLength s.username (config.maxLength - unitsOf config.marker) ≤
      s.username.length := by
    rw [bodyLength_room hb]
    refine Nat.le_trans (takeThrough_isPrefix isWordChar _).length_le ?_
    rw [List.length_take]
    exact Nat.min_le_right _ _
  have hle := Nat.le_trans (s.addressable_stop hs).le h.units_le
  rw [shapeCut, shapeCut?, sub_eq (Nat.le_of_lt (s.start_lt_stop hs)), pure_bind]
  change (if isSuspicious config s = true then _ else _) = _
  by_cases hsuspicious : isSuspicious config s = true
  · rw [if_pos hsuspicious, if_pos hsuspicious]
    simp only [bodyLength_eq, pure_bind]
    rw [add_eq (by omega), pure_bind, add_eq (by omega), pure_bind]
  · rw [if_neg hsuspicious, if_neg hsuspicious]

theorem filterMapM_eq {f : Span → Checked (Option Nat)} {g : Span → Option Nat}
    (h : ∀ s ∈ spans, f s = pure (g s)) :
    spans.filterMapM f = pure (spans.filterMap g) := by
  induction spans with
  | nil => rfl
  | cons s spans ih =>
    obtain ⟨hs, hspans⟩ := List.forall_mem_cons.1 h
    rw [List.filterMapM_cons, hs, pure_bind, ih hspans, List.filterMap_cons]
    cases g s with
    | none => rfl
    | some cut => rfl

/-- Finding the cuts goes wrong nowhere. -/
theorem cuts_eq (h : Fits t) (hprevious : ∀ previous ∈ previous?, Fits previous) :
    cuts config t previous? = pure (Growth.cuts config t previous?) := by
  unfold cuts Growth.cuts
  rw [scan_eq h, pure_bind]
  cases previous? with
  | some previous =>
    simp only [scan_eq (hprevious previous rfl), pure_bind]
    exact filterMapM_eq fun s hs => grownCut_eq h hs _
  | none => exact filterMapM_eq fun s hs => shapeCut_eq h hs

/-! ## The separators -/

/-- Inserts a separator at each of the given offsets, the last one first. -/
def separate (sep buffer : Text) : List Nat → Checked Text
  | [] => return buffer
  | cut :: rest => do
    let done ← separate sep buffer rest
    splice done cut cut sep >>= fun text => require text

/-- Cuts the mentions of a buffer that have grown. -/
def repair (config : Config) (buffer : Text) (previous? : Option Text) : Checked Text := do
  let cuts ← cuts config buffer previous?
  if cuts.isEmpty then return buffer
  separate (separator previous?) buffer cuts

/-- The separators are put in, if the text with all of them fits. -/
theorem separate_eq (h : Separated sep pos t places t') (hl : units l = pos)
    (hnew : Fits (l ++ t')) : separate sep (l ++ t) places = pure (l ++ t') := by
  induction h generalizing l with
  | done => rfl
  | @cut pos x t t' places _ ih =>
    have hx : units (l ++ x) = pos + units x := by rw [units_append, hl]
    have hall : Fits (l ++ x ++ sep ++ t') := by simpa using hnew
    have hbefore : Fits (l ++ x ++ t') := by
      unfold Fits at hall ⊢
      simp only [bytes_append] at hall ⊢
      omega
    rw [separate, ← List.append_assoc, ih hx hbefore, pure_bind, ← hx, splice_insert hbefore hall,
      pure_bind, require_some]
    simp only [List.append_assoc]

/-- The places where a buffer is cut are in order, for any marker. -/
theorem exists_separated_cuts (config : Config) (buffer : Text) (previous? : Option Text) :
    ∃ t', Separated (separator previous?) 0 buffer (Growth.cuts config buffer previous?) t' := by
  have hscans := scans_scan config.marker buffer
  cases previous? with
  | some previous =>
    rw [cuts_some]
    exact exists_separated hscans (fun s _ => keepsMention_keptOld? config.marker previous s) _
  | none =>
    rw [cuts_none]
    exact exists_separated hscans (fun s hs => keepsMention_keptWithin? hs) _

/-- A repair goes wrong only if the repaired buffer is too long. -/
theorem repair_eq (h : Fits t) (hprevious : ∀ previous ∈ previous?, Fits previous)
    (hnew : Fits (Growth.repair config t previous?)) :
    repair config t previous? = pure (Growth.repair config t previous?) := by
  obtain ⟨t', ht'⟩ := exists_separated_cuts config t previous?
  have hseparate : Growth.repair config t previous? = t' := ht'.separate_eq
  rw [hseparate] at hnew ⊢
  rw [repair, cuts_eq h hprevious, pure_bind]
  split
  · next hempty =>
    -- nothing is cut, and the buffer is left as it is
    rw [List.isEmpty_iff.1 hempty] at ht'
    cases ht'
    rfl
  · exact separate_eq (l := []) ht' rfl hnew

end Mentions.Checked
