import Mentions.Proofs.Growth.Rescan
import Mentions.Proofs.Scan.Spans

/-!
# Repairing against the buffer before an edit

A mention of the buffer before an edit *grows into* one after it, if both start at the same place
and the old one is a shorter text at the head of the new one (`Span.GrowsInto`). No two old mentions
grow into the same one, since no two start at the same place, so `grownFrom?` finds the only one
there is.

A repair keeps the old mention of a mention that has grown (`keptOld?`), and the old one is a
mention at the head of the new one. So the general result about separated texts says what becomes of
the buffer and of its mentions: `repair_undoes_growth`.
-/

namespace Mentions

open Text

/-- A mention before an edit has grown into one after it. -/
def Span.GrowsInto (p s : Span) : Prop :=
  p.start = s.start ∧ p.text <+: s.text ∧ p.text.length < s.text.length

instance (p s : Span) : Decidable (p.GrowsInto s) := inferInstanceAs (Decidable (_ ∧ _ ∧ _))

/-- A mention has grown from one of those before an edit. -/
def Span.Grown (olds : List Span) (s : Span) : Prop := ∃ p ∈ olds, p.GrowsInto s

instance (olds : List Span) (s : Span) : Decidable (s.Grown olds) :=
  inferInstanceAs (Decidable (∃ p ∈ olds, p.GrowsInto s))

namespace Growth

variable {m : Char} {previous : Text} {olds : List Span} {p s : Span}

/-- The mention that a mention has grown from. -/
def grownFrom? (olds : List Span) (s : Span) : Option Span := olds.find? fun p => p.GrowsInto s

/-- What a repair keeps of a mention that has grown. -/
def keptOld? (olds : List Span) (s : Span) : Option Text := (grownFrom? olds s).map (·.text)

theorem grownFrom?_eq_none_iff : grownFrom? olds s = none ↔ ¬ s.Grown olds := by
  simp [grownFrom?, Span.Grown]

/-- The mention that a mention has grown from is the only one. -/
theorem grownFrom?_eq_some_iff :
    grownFrom? (scan m previous) s = some p ↔ p ∈ scan m previous ∧ p.GrowsInto s := by
  constructor
  · intro h
    exact ⟨List.mem_of_find?_eq_some h, by simpa using List.find?_some h⟩
  · rintro ⟨hp, hg⟩
    cases h : grownFrom? (scan m previous) s with
    | none => exact absurd ⟨p, hp, hg⟩ (grownFrom?_eq_none_iff.1 h)
    | some q =>
      have hq : q.GrowsInto s := by simpa using List.find?_some h
      rw [eq_of_start_eq (List.mem_of_find?_eq_some h) hp (hq.1.trans hg.1.symm)]

theorem isSome_keptOld? (olds : List Span) (s : Span) :
    (keptOld? olds s).isSome = decide (s.Grown olds) := by
  rw [keptOld?, Option.isSome_map, Bool.eq_iff_iff, decide_eq_true_eq, ← Option.ne_none_iff_isSome,
    Ne, grownFrom?_eq_none_iff, Decidable.not_not]

/-- A repair cuts a mention behind the one that it has grown from. -/
theorem grownCut?_eq (m : Char) (previous : Text) (s : Span) :
    grownCut? (scan m previous) s = cutAfter? (keptOld? (scan m previous)) s := by
  have hiff (q : Span) : (decide (q.text.length < s.text.length) && q.text.isPrefixOf s.text) = true
      ↔ q.text <+: s.text ∧ q.text.length < s.text.length := by
    rw [Bool.and_eq_true, decide_eq_true_eq, List.isPrefixOf_iff_prefix, and_comm]
  rw [cutAfter?, keptOld?, grownCut?]
  split
  · next q hq =>
    have hmem := List.mem_of_find?_eq_some hq
    have hstart : q.start = s.start := by simpa using List.find?_some hq
    by_cases hg : q.text <+: s.text ∧ q.text.length < s.text.length
    · rw [if_pos ((hiff q).2 hg), grownFrom?_eq_some_iff.2 ⟨hmem, hstart, hg⟩]
      rfl
    · have hnone : grownFrom? (scan m previous) s = none := by
        rw [grownFrom?_eq_none_iff]
        rintro ⟨p, hp, hps, hgp⟩
        rw [eq_of_start_eq hp hmem (hps.trans hstart.symm)] at hgp
        exact hg hgp
      rw [if_neg fun h => hg ((hiff q).1 h), hnone]
      rfl
  · next hq =>
    have hnone : grownFrom? (scan m previous) s = none := by
      rw [grownFrom?_eq_none_iff]
      rintro ⟨p, hp, hps, -⟩
      exact absurd (by simpa using hps) (List.find?_eq_none.1 hq p hp)
    rw [hnone]
    rfl

/-- A mention that has grown begins with the one that it has grown from. -/
theorem keepsMention_keptOld? (m : Char) (previous : Text) (s : Span) :
    KeepsMention m (keptOld? (scan m previous)) s := by
  intro k hk
  obtain ⟨p, hp, rfl⟩ := Option.map_eq_some_iff.1 hk
  obtain ⟨hp, -, ⟨r, hr⟩, -⟩ := grownFrom?_eq_some_iff.1 hp
  obtain ⟨-, b, hb, hbody⟩ := p.slice?_eq_text hp
  refine ⟨b, r, hb, hbody, ?_⟩
  rw [← hr, hb, List.cons_append]

/-- With the buffer before the edit, the cuts are behind the old mentions. -/
theorem cuts_some (config : Config) (current previous : Text) :
    cuts config current (some previous) = (scan config.marker current).filterMap
      (cutAfter? (keptOld? (scan config.marker previous))) := by
  rw [cuts, grownCuts]
  exact congrArg (List.filterMap · _) (funext (grownCut?_eq config.marker previous))

/-- A repair gives the separated buffer with the mentions as they were before. -/
theorem repaired_repair (config : Config) (hm : isBodyChar config.marker = false)
    (hz : isZeroWidth config.marker = false) (current previous : Text) :
    Repaired config.marker growthSeparator (keptOld? (scan config.marker previous)) 0 current
      (scan config.marker current) 0 (repair config current (some previous)) := by
  rw [repair, cuts_some]
  exact repaired_separate hm hz isSeparator_growthSeparator fun s _ =>
    keepsMention_keptOld? config.marker previous s

/-- Each mention that has grown is cut once, behind the old one. -/
theorem forall₂_cuts (m : Char) (previous : Text) (spans : List Span) :
    List.Forall₂ (fun s cut => ∃ p ∈ scan m previous, p.GrowsInto s ∧ cut = s.start + units p.text)
      (spans.filter fun s => s.Grown (scan m previous))
      (spans.filterMap (cutAfter? (keptOld? (scan m previous)))) := by
  induction spans with
  | nil => exact .nil
  | cons s spans ih =>
    cases h : grownFrom? (scan m previous) s with
    | none =>
      have hcut : cutAfter? (keptOld? (scan m previous)) s = none := by
        rw [cutAfter?, keptOld?, h]
        rfl
      rw [List.filter_cons_of_neg (by simpa using grownFrom?_eq_none_iff.1 h),
        List.filterMap_cons_none hcut]
      exact ih
    | some p =>
      obtain ⟨hp, hg⟩ := grownFrom?_eq_some_iff.1 h
      have hcut : cutAfter? (keptOld? (scan m previous)) s = some (s.start + units p.text) := by
        rw [cutAfter?, keptOld?, h]
        rfl
      rw [List.filter_cons_of_pos (by simpa using ⟨p, hp, hg⟩), List.filterMap_cons_some hcut]
      exact .cons ⟨p, hp, hg, rfl⟩ ih

/-- There are as many cuts as mentions that have grown. -/
theorem length_cuts (m : Char) (previous : Text) (spans : List Span) :
    (spans.filterMap (cutAfter? (keptOld? (scan m previous)))).length =
      spans.countP fun s => s.Grown (scan m previous) := by
  rw [List.length_filterMap_eq_countP]
  refine List.countP_congr fun s _ => ?_
  rw [cutAfter?, Option.isSome_map, isSome_keptOld?]

/-- A repair leaves a buffer as it is exactly if no mention of it has grown. -/
theorem repair_eq_self_iff (config : Config) (hm : isBodyChar config.marker = false)
    (hz : isZeroWidth config.marker = false) (current previous : Text) :
    repair config current (some previous) = current ↔
      ∀ s ∈ scan config.marker current, ¬ s.Grown (scan config.marker previous) := by
  have hrep := repaired_repair config hm hz current previous
  rw [hrep.separated.eq_iff isSeparator_growthSeparator, ← List.length_eq_zero_iff, length_cuts,
    List.countP_eq_zero]
  simp only [decide_eq_true_eq]

/-- The separator takes three units. -/
theorem units_growthSeparator : units growthSeparator = 3 := by decide

/-- The spans after a repair, one for each of those before it. -/
theorem getElem?_scan_repair (config : Config) (hm : isBodyChar config.marker = false)
    (hz : isZeroWidth config.marker = false) (current previous : Text) (i : Nat) :
    (scan config.marker (repair config current (some previous)))[i]? =
      (scan config.marker current)[i]?.map fun s =>
        s.keeping (3 * ((scan config.marker current).take i).countP
            fun s => s.Grown (scan config.marker previous))
          ((keptOld? (scan config.marker previous) s).getD s.text) := by
  have h := (repaired_repair config hm hz current previous).scans.scan_eq
  rw [h, getElem?_afterCuts, units_growthSeparator]
  simp only [isSome_keptOld?, Nat.zero_add]

/-- **A repair undoes growth, and does nothing else.** The mentions stay in number and in order; one
that has grown is the old one again, every other one keeps its text, and each moves by three units
for each one before it that has grown. The buffer gains a separator behind the old text of each
mention that has grown, so that it is longer by three units for each, is displayed as before, and is
the same if nothing has grown. -/
theorem repair_undoes_growth (config : Config) (current previous : Text)
    (hm : isBodyChar config.marker = false) (hz : isZeroWidth config.marker = false) :
    let olds := scan config.marker previous
    let spans := scan config.marker current
    let fixed := repair config current (some previous)
    let spans' := scan config.marker fixed
    spans'.length = spans.length ∧
    (∀ (i : Nat) (s s' : Span), spans[i]? = some s → spans'[i]? = some s' →
      s'.start = s.start + 3 * (spans.take i).countP (fun s => s.Grown olds) ∧
      s'.stop = s'.start + units s'.text ∧
      (∀ p ∈ olds, p.GrowsInto s → s'.text = p.text) ∧
      (¬ s.Grown olds → s'.text = s.text)) ∧
    (∃ cuts : List Nat,
      List.Forall₂ (fun s cut => ∃ p ∈ olds, p.GrowsInto s ∧ cut = s.start + units p.text)
        (spans.filter fun s => s.Grown olds) cuts ∧
      Separated growthSeparator 0 current cuts fixed) ∧
    units fixed = units current + 3 * spans.countP (fun s => s.Grown olds) ∧
    strip fixed = strip current ∧
    (fixed = current ↔ ∀ s ∈ spans, ¬ s.Grown olds) := by
  intro olds spans fixed spans'
  have hrep := repaired_repair config hm hz current previous
  refine ⟨?_, ?_, ⟨_, forall₂_cuts _ _ _, hrep.separated⟩, ?_, ?_,
    repair_eq_self_iff config hm hz current previous⟩
  · rw [← length_afterCuts (keptOld? olds) (units growthSeparator) 0 spans]
    exact congrArg List.length hrep.scans.scan_eq
  · intro i s s' hs hs'
    rw [getElem?_scan_repair config hm hz, hs] at hs'
    obtain rfl := Option.some.inj hs'
    refine ⟨rfl, rfl, ?_, ?_⟩
    · intro p hp hg
      show (keptOld? olds s).getD s.text = p.text
      rw [keptOld?, grownFrom?_eq_some_iff.2 ⟨hp, hg⟩]
      rfl
    · intro hg
      show (keptOld? olds s).getD s.text = s.text
      rw [keptOld?, grownFrom?_eq_none_iff.2 hg]
      rfl
  · rw [← length_cuts, ← units_growthSeparator]
    exact hrep.separated.units_eq
  · exact hrep.separated.strip_eq isSeparator_growthSeparator

/-- A mention that has grown is cut back, and the one behind it moves. -/
theorem repair_undoes_growth_once :
    isBodyChar '@' = false ∧ isZeroWidth '@' = false ∧
    (⟨0, 3, "@al".toList⟩ : Span).GrowsInto ⟨0, 6, "@alice".toList⟩ ∧
    scan '@' (repair {} "@alice @bob".toList (some "@al @bob".toList)) =
      [⟨0, 3, "@al".toList⟩, ⟨10, 14, "@bob".toList⟩] ∧
    units (repair {} "@alice @bob".toList (some "@al @bob".toList)) = 14 ∧
    strip (repair {} "@alice @bob".toList (some "@al @bob".toList)) = "@alice @bob".toList := by
  have hm : isBodyChar '@' = false := by decide
  have hz : isZeroWidth '@' = false := by decide
  have hscan : scan '@' (repair {} "@alice @bob".toList (some "@al @bob".toList)) =
      [⟨0, 3, "@al".toList⟩, ⟨10, 14, "@bob".toList⟩] := by decide +kernel
  have hgrown : (scan '@' "@alice @bob".toList).countP
      (fun s => s.Grown (scan '@' "@al @bob".toList)) = 1 := by decide +kernel
  have h := repair_undoes_growth {} "@alice @bob".toList "@al @bob".toList hm hz
  obtain ⟨-, -, -, hunits, hstrip, -⟩ := h
  refine ⟨hm, hz, by decide, hscan, ?_, ?_⟩
  · exact hunits.trans (congrArg (11 + 3 * ·) hgrown)
  · exact hstrip

end Growth

end Mentions
