import Mentions.Proofs.Growth.Shape
import Mentions.Proofs.Scan.Append

/-!
# What the length limit is worth

After a repair by the length limit no mention can be cut any more
(`not_cuttable_of_mem_scan_repair`). A mention whose body begins with a word character can be cut if
it is overlong and the limit leaves room for one body character (`Span.cuttable_of_lt`), so every
such mention is within the limit then (`length_le_of_mem_scan_repair`). Without that room no mention
can be cut at all, and a repair changes nothing (`repair_eq_self_of_room_eq_zero`).

A configuration is accepted if the limit is two or more, which is room for a body character beside a
marker of one unit. A marker of two units has none then: this is the one limit among those accepted
that no repair enforces. Main statement: `limit_enforced_iff`.
-/

namespace Mentions

open Text

variable {s : Span} {config : Config}

/-- The mention has a body that begins with a word character. -/
def Span.StartsWithWordChar (s : Span) : Prop := ∃ c ∈ s.username.head?, isWordChar c = true

instance (s : Span) : Decidable s.StartsWithWordChar := inferInstanceAs (Decidable (∃ c ∈ _, _))

/-- An overlong mention whose body begins with a word character can be cut if this character has
room. -/
theorem Span.cuttable_of_lt (hroom : 0 < config.room) (hlt : config.maxLength < s.length)
    (hfirst : s.StartsWithWordChar) : s.Cuttable config := by
  obtain ⟨c, hc, hword⟩ := hfirst
  obtain ⟨b, hb⟩ := List.head?_eq_some_iff.1 hc
  obtain ⟨n, hn⟩ := Nat.exists_eq_add_one.2 hroom
  refine ⟨hlt, c, ?_, hword⟩
  rw [hb, hn, List.take_succ_cons]
  exact List.mem_cons_self

/-- No mention can be cut if no character has room. -/
theorem Span.not_cuttable (hroom : config.room = 0) : ¬s.Cuttable config := by
  rintro ⟨-, c, hc, -⟩
  rw [hroom, List.take_zero] at hc
  cases hc

namespace Growth

/-- After a repair, the mentions whose body begins with a word character are within the limit. -/
theorem length_le_of_mem_scan_repair (hm : isBodyChar config.marker = false)
    (hz : isZeroWidth config.marker = false) (hroom : 0 < config.room) {buffer : Text}
    (hs : s ∈ scan config.marker (repair config buffer none)) (hfirst : s.StartsWithWordChar) :
    s.length ≤ config.maxLength := by
  refine Nat.le_of_not_lt fun hlt => ?_
  exact not_cuttable_of_mem_scan_repair hm hz hs (s.cuttable_of_lt hroom hlt hfirst)

/-- A repair changes nothing if the limit leaves no room. -/
theorem repair_eq_self_of_room_eq_zero (hroom : config.room = 0) (buffer : Text) :
    repair config buffer none = buffer := by
  have hnone : cuts config buffer none = [] := by
    rw [cuts_none]
    refine List.filterMap_eq_nil_iff.2 fun s _ => ?_
    rw [cutAfter?, keptWithin?, if_neg (s.not_cuttable hroom)]
    rfl
  rw [repair, hnone, separate]

/-- The shortest mention: one word character behind the marker. -/
theorem mem_scan_shortest {m : Char} (hm : isBodyChar m = false) :
    (⟨0, unitsOf m + 1, [m, 'a']⟩ : Span) ∈ scan m [m, 'a'] := by
  have hb : IsBody ['a'] := (isBody_concat_iff (l := [])).2 ⟨nofun, by decide⟩
  have hone : unitsOf 'a' = 1 := by decide
  have hmem := (mem_scan_append_iff (l := []) (r := []) hm hb).2 released_nil
  simpa [hone] using hmem

/-- **The limit is enforced exactly if a body has room.** After a repair by the length limit, every
mention whose body begins with a word character is within the limit, whatever the buffer was,
exactly if the limit is more than the marker takes. Among the accepted configurations only those
with a marker of two units and a limit of two fall short of this, and with them no buffer is
changed. -/
theorem limit_enforced_iff (config : Config) (hv : config.validate = .ok ()) :
    ((∀ buffer, ∀ s ∈ scan config.marker (repair config buffer none), s.StartsWithWordChar →
        s.length ≤ config.maxLength) ↔ unitsOf config.marker < config.maxLength) ∧
      (¬unitsOf config.marker < config.maxLength →
        unitsOf config.marker = 2 ∧ config.maxLength = 2 ∧
          ∀ buffer, repair config buffer none = buffer) := by
  obtain ⟨hm, hz, -⟩ := Config.marker_of_validate hv
  have hmin : 2 ≤ config.maxLength := (Config.validate_eq_ok_iff.1 hv).2
  have hwidth := unitsOf_le_two config.marker
  have hzero (h : ¬unitsOf config.marker < config.maxLength) : config.room = 0 :=
    Nat.sub_eq_zero_of_le (Nat.le_of_not_lt h)
  refine ⟨⟨fun hall => ?_, fun hlt buffer s hs => ?_⟩, fun h => ?_⟩
  · -- the shortest mention there is must be within the limit
    refine Decidable.byContradiction fun h => ?_
    have hshort := hall [config.marker, 'a'] ⟨0, unitsOf config.marker + 1, [config.marker, 'a']⟩
    rw [repair_eq_self_of_room_eq_zero (hzero h)] at hshort
    exact h (hshort (mem_scan_shortest hm) ⟨'a', rfl, by decide⟩)
  · exact length_le_of_mem_scan_repair hm hz (Nat.sub_pos_of_lt hlt) hs
  · exact ⟨by omega, by omega, repair_eq_self_of_room_eq_zero (hzero h)⟩

/-- With a limit of three, a mention with a marker of two units is cut behind one character. -/
theorem limit_enforced_iff_astral :
    ({ marker := '😀', maxLength := 3 } : Config).validate = .ok () ∧ unitsOf '😀' < 3 ∧
    scan '😀' (repair { marker := '😀', maxLength := 3 } "a 😀al".toList none) =
      [⟨2, 5, "😀a".toList⟩] ∧
    (⟨2, 5, "😀a".toList⟩ : Span).length ≤ 3 := by
  have hv : ({ marker := '😀', maxLength := 3 } : Config).validate = .ok () := by decide
  have hlt : unitsOf '😀' < 3 := by decide
  have hscan : scan '😀' (repair { marker := '😀', maxLength := 3 } "a 😀al".toList none) =
      [⟨2, 5, "😀a".toList⟩] := by decide +kernel
  have hall := (limit_enforced_iff { marker := '😀', maxLength := 3 } hv).1.2 hlt "a 😀al".toList
    ⟨2, 5, "😀a".toList⟩
  rw [hscan] at hall
  exact ⟨hv, hlt, hscan, hall List.mem_cons_self ⟨'a', rfl, by decide⟩⟩

/-- An accepted configuration may have a limit that the shortest mention exceeds. -/
theorem limit_of_wide_marker_exceeded :
    ¬∀ config : Config, config.validate = .ok () →
      ∀ buffer, ∀ s ∈ scan config.marker (repair config buffer none), s.StartsWithWordChar →
        s.length ≤ config.maxLength := by
  intro h
  have hlong := h { marker := '😀', maxLength := 2 } (by decide) "😀a".toList
    ⟨0, 3, "😀a".toList⟩ (by decide +kernel) ⟨'a', rfl, by decide⟩
  revert hlong
  decide

end Growth

end Mentions
