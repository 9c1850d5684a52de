import Mathlib.Data.Nat.Dist
import Mathlib.Order.Monotone.Defs
import Mentions.Proofs.Scan.Position

/-!
# The legal position nearest to a click

A click at an offset is meant for the place at it, or for the end of the buffer if it lies behind
it. It lands at a legal position, and no other legal position is nearer to what it is meant for
(`Config.dist_clamp_le`). Two things may keep it from landing right there. The offset may be between
the two units of a character; then it is rounded down, by one unit, and no mention is around the
place before such a character (`floor_eq_min_of_interior`). Or a mention is around it; then the
legal positions nearest to it are the two ends of the mention.

Everything else follows from this. A legal position is at no distance from itself, so a click there
stays. And two clicks in order cannot land in the wrong order, since each of them would then be at
least as near to where the other one lands: `clamp_is_monotone_retraction`.
-/

namespace Mentions

open Text

variable {t : Text} {u v : Nat} {m : Char} {s : Span} {config : Config}

/-- Where a mention is around the place that an offset is rounded down to, it has not been rounded:
each character behind the marker takes one unit. -/
theorem floor_eq_min_of_interior (hs : s ∈ scan m t) (hi : s.interior (floor t u) = true) :
    floor t u = min u (units t) := by
  obtain ⟨h1, h2⟩ := Span.interior_iff.1 hi
  have hstop := s.addressable_stop hs
  have hu : u < s.stop := by
    refine Nat.lt_of_not_le fun hle => ?_
    have := hstop.le_floor hle
    omega
  obtain ⟨l, r, rfl, hl⟩ := addressable_iff.1 (addressable_floor t u)
  rw [← hl] at h1 h2
  cases r with
  | nil =>
    have := hstop.le
    simp only [List.append_nil] at this
    omega
  | cons c r =>
    have hone := unitsOf_of_isBodyChar (s.isBodyChar_of_lt hs h1 h2)
    have hnext : Addressable (l ++ c :: r) (units l + 1) := by
      have := addressable_append (l ++ [c]) r
      rwa [units_append, units_cons, units_nil, hone, List.append_assoc] at this
    -- the place behind the character is behind the offset
    have hgt : u < units l + 1 := by
      refine Nat.lt_of_not_le fun hle => ?_
      have := hnext.le_floor hle
      omega
    have hle := floor_le (l ++ c :: r) u
    have hend := hstop.le
    omega

namespace Config

/-- A click behind the end is one at the end. -/
theorem clamp_min (config : Config) (buffer : Text) (cursor : Nat) :
    config.clamp buffer (min cursor (units buffer)) = config.clamp buffer cursor := by
  rw [clamp, clamp, floor_min]

/-- No legal position is nearer to the place that a click is meant for than the one where it
lands. -/
theorem dist_clamp_le (config : Config) {buffer : Text} {pos : Nat}
    (hpos : Legal config.marker buffer pos) (cursor : Nat) :
    Nat.dist (config.clamp buffer cursor) (min cursor (units buffer)) ≤
      Nat.dist pos (min cursor (units buffer)) := by
  rcases config.clamp_cases buffer cursor with ⟨-, heq⟩ | ⟨s, hs, hi, heq⟩
  · have hend := hpos.1.le
    have hle := floor_le buffer cursor
    have hone := min_le_floor_add_one buffer cursor
    have hfloor := (addressable_floor buffer cursor).le
    have hlast : pos ≤ cursor → pos ≤ buffer.floor cursor := hpos.1.le_floor
    rw [heq]
    unfold Nat.dist
    omega
  · have hmin := floor_eq_min_of_interior hs hi
    have hout := hpos.outside hs
    obtain ⟨h1, h2⟩ := Span.interior_iff.1 hi
    rw [heq, ← hmin, Span.nearerEnd]
    unfold Nat.dist
    split <;> omega

/-- A click at a legal position stays there. -/
theorem clamp_eq_self {buffer : Text} {cursor : Nat} (h : Legal config.marker buffer cursor) :
    config.clamp buffer cursor = cursor := by
  have hdist := config.dist_clamp_le h cursor
  rw [Nat.min_eq_left h.1.le, Nat.dist_self] at hdist
  exact Nat.eq_of_dist_eq_zero (Nat.le_zero.1 hdist)

/-- Two clicks in order land in order. -/
theorem clamp_le_clamp (config : Config) (buffer : Text) {u v : Nat} (h : u ≤ v) :
    config.clamp buffer u ≤ config.clamp buffer v := by
  refine Nat.le_of_not_lt fun hlt => ?_
  have hu := config.dist_clamp_le (config.legal_clamp buffer v) u
  have hv := config.dist_clamp_le (config.legal_clamp buffer u) v
  -- both are meant for the place midway between the two where they land, which is one place
  have hmin : min u (units buffer) = min v (units buffer) := by
    unfold Nat.dist at hu hv
    omega
  rw [← config.clamp_min buffer u, hmin, clamp_min] at hlt
  exact Nat.lt_irrefl _ hlt

end Config

/-- **A click is a monotone retraction onto the legal positions, and the nearest one.** It lands at
a legal position, stays where it is if it is at one, and so does not move again. No legal position
is nearer to the place it is meant for, and midway between the two ends of a mention it lands at the
right one. Two clicks in order land in order. -/
theorem clamp_is_monotone_retraction (config : Config) (buffer : Text) :
    let clamp := config.clamp buffer
    (∀ u, Legal config.marker buffer (clamp u)) ∧
    (∀ u, Legal config.marker buffer u → clamp u = u) ∧
    (∀ u, clamp (clamp u) = clamp u) ∧
    (∀ u v, Legal config.marker buffer v →
      Nat.dist (clamp u) (min u (units buffer)) ≤ Nat.dist v (min u (units buffer))) ∧
    (∀ s ∈ scan config.marker buffer, ∀ u, Addressable buffer u → s.start + s.stop = 2 * u →
      clamp u = s.stop) ∧
    Monotone clamp := by
  refine ⟨config.legal_clamp buffer, fun u => Config.clamp_eq_self,
    fun u => Config.clamp_eq_self (config.legal_clamp buffer u),
    fun u v hv => config.dist_clamp_le hv u, ?_, fun u v => config.clamp_le_clamp buffer⟩
  intro s hs u hu hmid
  have hlt := s.start_lt_stop hs
  have hi : s.interior u = true := Span.interior_iff.2 ⟨by omega, by omega⟩
  have hnearer : s.nearerEnd u = s.stop := if_neg (by omega)
  show config.clamp buffer u = s.stop
  rw [Config.clamp, hu.floor_eq, Span.around?_of_interior hs hi]
  exact hnearer

/-- A marker of two units: behind it a click is midway in the mention, and between its units it is
rounded down. -/
theorem clamp_is_monotone_retraction_astral :
    scan '😀' "x😀ab".toList = [⟨1, 5, "😀ab".toList⟩] ∧
    Addressable "x😀ab".toList 3 ∧
    ({ marker := '😀' } : Config).clamp "x😀ab".toList 3 = 5 ∧
    ({ marker := '😀' } : Config).clamp "x😀ab".toList 2 = 1 := by
  have hscan : scan '😀' "x😀ab".toList = [⟨1, 5, "😀ab".toList⟩] := by decide
  have hplace : Addressable "x😀ab".toList 3 := by decide
  have h := clamp_is_monotone_retraction { marker := '😀' } "x😀ab".toList
  obtain ⟨-, -, -, -, hmid, -⟩ := h
  refine ⟨hscan, hplace, hmid ⟨1, 5, "😀ab".toList⟩ ?_ 3 hplace rfl, by decide⟩
  rw [hscan]
  exact List.mem_singleton_self _

end Mentions
