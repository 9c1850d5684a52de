import Mathlib.Algebra.Order.BigOperators.Group.List
import Mathlib.Algebra.Order.Ring.Nat
import Mathlib.Logic.Function.Iterate
import Mentions.Proofs.Growth.Baseline
import Mentions.Proofs.Scan.Append

/-!
# Repairing again

A repair moves the mentions behind a cut, and one that it moves onto the start of another old
mention may look grown only then. So one repair against the buffer before the edit need not be the
last one that changes something. But each one that does leaves a shorter mention at least once, and
a longer one nowhere (`covered_repair_lt`): the number of units that the mentions cover together
(`covered`) goes down. It cannot go down for ever, so the repairs come to a buffer that they leave
as it is (`exists_iterate_eq`).

Main statement: `repeated_repair_settles`.
-/

namespace Mentions

open Text

/-- The number of units that the mentions of a text cover. -/
def covered (m : Char) (t : Text) : Nat := ((scan m t).map Span.length).sum

namespace Growth

variable {m : Char} {previous b t : Text} {olds : List Span} {p s : Span} {config : Config}

/-! ## What the mentions cover -/

/-- What the mentions cover is what their texts measure. -/
theorem covered_eq (m : Char) (t : Text) :
    covered m t = ((scan m t).map fun s => units s.text).sum :=
  congrArg List.sum (List.map_congr_left fun s hs => s.length_eq hs)

/-- A mention is shorter than one that has grown from it. -/
theorem units_lt_of_growsInto (h : p.GrowsInto s) : units p.text < units s.text := by
  obtain ⟨-, ⟨r, hr⟩, hlt⟩ := h
  have hne : r ≠ [] := by
    rintro rfl
    rw [List.append_nil] at hr
    rw [hr] at hlt
    exact Nat.lt_irrefl _ hlt
  have hpos := units_pos hne
  rw [← hr, units_append]
  omega

/-- What a repair keeps of a mention that has grown is shorter. -/
theorem units_getD_keptOld?_lt (h : s.Grown olds) :
    units ((keptOld? olds s).getD s.text) < units s.text := by
  cases hfrom : grownFrom? olds s with
  | none => exact absurd h (grownFrom?_eq_none_iff.1 hfrom)
  | some p =>
    have hg : p.GrowsInto s := by simpa using List.find?_some hfrom
    rw [keptOld?, hfrom]
    exact units_lt_of_growsInto hg

/-- What a repair keeps of a mention is not longer. -/
theorem units_getD_keptOld?_le (olds : List Span) (s : Span) :
    units ((keptOld? olds s).getD s.text) ≤ units s.text := by
  by_cases h : s.Grown olds
  · exact Nat.le_of_lt (units_getD_keptOld?_lt h)
  · rw [keptOld?, grownFrom?_eq_none_iff.2 h]
    exact Nat.le_refl _

/-! ## One repair -/

/-- A repair that changes the buffer makes its mentions cover less. -/
theorem covered_repair_lt (hm : isBodyChar config.marker = false)
    (hz : isZeroWidth config.marker = false) (h : repair config b (some previous) ≠ b) :
    covered config.marker (repair config b (some previous)) < covered config.marker b := by
  rw [Ne, repair_eq_self_iff config hm hz] at h
  simp only [not_forall, Decidable.not_not] at h
  obtain ⟨s, hs, hg⟩ := h
  rw [covered, (repaired_repair config hm hz b previous).scans.scan_eq, map_length_afterCuts,
    covered_eq]
  exact List.sum_lt_sum _ _ (fun s _ => units_getD_keptOld?_le _ s)
    ⟨s, hs, units_getD_keptOld?_lt hg⟩

/-- A repair keeps the number of mentions, and what is displayed. -/
theorem repair_keeps (hm : isBodyChar config.marker = false)
    (hz : isZeroWidth config.marker = false) (previous b : Text) :
    (scan config.marker (repair config b (some previous))).length =
        (scan config.marker b).length ∧
      strip (repair config b (some previous)) = strip b := by
  have hrep := repaired_repair config hm hz b previous
  rw [hrep.scans.scan_eq, length_afterCuts]
  exact ⟨rfl, hrep.separated.strip_eq isSeparator_growthSeparator⟩

/-! ## Any number of repairs -/

/-- What one repair keeps is kept by any number of them. -/
theorem iterate_repair_keeps (hm : isBodyChar config.marker = false)
    (hz : isZeroWidth config.marker = false) (previous b : Text) (n : Nat) :
    (scan config.marker ((fun b => repair config b (some previous))^[n] b)).length =
        (scan config.marker b).length ∧
      strip ((fun b => repair config b (some previous))^[n] b) = strip b := by
  induction n with
  | zero => exact ⟨rfl, rfl⟩
  | succ n ih =>
    rw [Function.iterate_succ_apply']
    obtain ⟨hlength, hstrip⟩ := repair_keeps hm hz previous
      ((fun b => repair config b (some previous))^[n] b)
    exact ⟨hlength.trans ih.1, hstrip.trans ih.2⟩

/-- A step that makes something smaller whenever it changes it comes to an end, after no more steps
than the size at the start. -/
theorem exists_iterate_eq {α : Type} {f : α → α} {size : α → Nat}
    (hf : ∀ a, f a ≠ a → size (f a) < size a) (a : α) :
    ∃ n ≤ size a, f (f^[n] a) = f^[n] a ∧ ∀ k < n, f (f^[k] a) ≠ f^[k] a := by
  induction hn : size a using Nat.strongRecOn generalizing a with
  | ind n ih =>
    subst hn
    by_cases hfix : f a = a
    · exact ⟨0, Nat.zero_le _, hfix, fun k hk => absurd hk (Nat.not_lt_zero k)⟩
    · have hlt := hf a hfix
      obtain ⟨n, hle, hend, hchange⟩ := ih _ hlt (f a) rfl
      refine ⟨n + 1, by omega, hend, ?_⟩
      intro k hk
      cases k with
      | zero => exact hfix
      | succ k => exact hchange k (Nat.lt_of_succ_lt_succ hk)

/-- **Repeating the repair against one buffer settles.** Each repair that changes the buffer makes
its mentions cover fewer units together, and keeps their number and what is displayed. So after at
most as many repairs as the mentions cover units at the start, each of which changes something, the
buffer stays as it is; it has as many mentions as at the start, and is displayed alike. -/
theorem repeated_repair_settles (config : Config) (previous : Text)
    (hm : isBodyChar config.marker = false) (hz : isZeroWidth config.marker = false) :
    let again := fun b => repair config b (some previous)
    (∀ b, again b ≠ b →
      covered config.marker (again b) < covered config.marker b ∧
      (scan config.marker (again b)).length = (scan config.marker b).length ∧
      strip (again b) = strip b) ∧
    ∀ b, ∃ n ≤ covered config.marker b,
      again (again^[n] b) = again^[n] b ∧
      (∀ k < n, again (again^[k] b) ≠ again^[k] b) ∧
      (scan config.marker (again^[n] b)).length = (scan config.marker b).length ∧
      strip (again^[n] b) = strip b := by
  intro again
  have hlt (b : Text) (h : again b ≠ b) :
      covered config.marker (again b) < covered config.marker b := covered_repair_lt hm hz h
  refine ⟨fun b h => ⟨hlt b h, repair_keeps hm hz previous b⟩, fun b => ?_⟩
  obtain ⟨n, hle, hend, hchange⟩ := exists_iterate_eq hlt b
  exact ⟨n, hle, hend, hchange, iterate_repair_keeps hm hz previous b n⟩

/-- The first repair cuts the first mention, and that moves the second one onto the start of a
shorter old one. So the second repair cuts it, and the third changes nothing. -/
theorem repeated_repair_settles_twice :
    isBodyChar '@' = false ∧ isZeroWidth '@' = false ∧
    repair {} "@alx@bob".toList (some "@al    @b".toList) = "@al\u200b\u200c\u200bx@bob".toList ∧
    covered '@' "@al\u200b\u200c\u200bx@bob".toList < covered '@' "@alx@bob".toList ∧
    repair {} "@al\u200b\u200c\u200bx@bob".toList (some "@al    @b".toList) =
      "@al\u200b\u200c\u200bx@b\u200b\u200c\u200bob".toList ∧
    repair {} "@al\u200b\u200c\u200bx@b\u200b\u200c\u200bob".toList (some "@al    @b".toList) =
      "@al\u200b\u200c\u200bx@b\u200b\u200c\u200bob".toList := by
  have hm : isBodyChar '@' = false := by decide
  have hz : isZeroWidth '@' = false := by decide
  have hfirst : repair {} "@alx@bob".toList (some "@al    @b".toList) =
      "@al\u200b\u200c\u200bx@bob".toList := by decide +kernel
  have hchange : repair {} "@alx@bob".toList (some "@al    @b".toList) ≠ "@alx@bob".toList := by
    rw [hfirst]
    decide
  have hless : covered '@' (repair {} "@alx@bob".toList (some "@al    @b".toList)) <
      covered '@' "@alx@bob".toList :=
    ((repeated_repair_settles {} "@al    @b".toList hm hz).1 _ hchange).1
  rw [hfirst] at hless
  exact ⟨hm, hz, hfirst, hless, by decide +kernel, by decide +kernel⟩

end Growth

end Mentions
