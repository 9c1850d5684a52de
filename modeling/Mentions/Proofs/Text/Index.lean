import Mentions.Proofs.Checked.Offsets

/-!
# Offsets and byte indices

A place of a text has two names: the host counts the UTF-16 units before it, the memory the bytes of
UTF-8. Both counts are made on the same left part, so to convert one into the other is to ask for a
left part with that many units and that many bytes, whichever of the two is given
(`Text.byteIndex?_eq_some_iff`, `Text.unitIndex?_eq_some_iff`), and the conversions undo each other.

What has no name of the other kind is refused. For a byte index that is what stands inside a
character (`Text.IsBoundary`), for an offset what lies beyond the end or between the two units of a
wide character (`Text.not_addressable_iff`). A later place has more bytes before it, in whatever mix
of narrow and wide characters (`Text.bytes_lt_bytes`).

Main statement: `indices_are_inverse`.
-/

namespace Mentions.Text

variable {t l r l' r' : Text} {c : Char} {u b : Nat}

/-! ## What an index stands for -/

/-- A byte index that stands at an end of the text or between two of its characters. -/
def IsBoundary (t : Text) (b : Nat) : Prop := ∃ l r, t = l ++ r ∧ bytes l = b

/-- An offset between the two units of a character beyond the basic plane. -/
def IsWithinPair (t : Text) (u : Nat) : Prop :=
  ∃ l c r, t = l ++ c :: r ∧ 0x10000 ≤ c.toNat ∧ u = units l + 1

/-- The characters beyond the basic plane are those that take a pair of units. -/
theorem unitsOf_eq_two_iff : unitsOf c = 2 ↔ 0x10000 ≤ c.toNat := by
  unfold unitsOf
  split
  · omega
  · omega

/-! ## Conversions -/

/-- The byte index of an offset is the number of bytes that stand before it. -/
theorem byteIndex?_eq_some_iff :
    t.byteIndex? u = some b ↔ ∃ l r, t = l ++ r ∧ units l = u ∧ bytes l = b := by
  rw [byteIndex?, Option.map_eq_some_iff]
  constructor
  · rintro ⟨⟨l, r⟩, hcut, rfl⟩
    obtain ⟨rfl, rfl⟩ := cut?_eq_some_iff.1 hcut
    exact ⟨l, r, rfl, rfl, rfl⟩
  · rintro ⟨l, r, rfl, rfl, rfl⟩
    exact ⟨(l, r), cut?_append l r, rfl⟩

/-- The offset of a byte index is the number of units that stand before it. -/
theorem unitIndex?_eq_some_iff :
    t.unitIndex? b = some u ↔ ∃ l r, t = l ++ r ∧ units l = u ∧ bytes l = b := by
  rw [unitIndex?, Option.map_eq_some_iff]
  constructor
  · rintro ⟨⟨l, r⟩, hcut, rfl⟩
    obtain ⟨rfl, rfl⟩ := (cutBy?_eq_some_iff Char.utf8Size_pos).1 hcut
    exact ⟨l, r, rfl, rfl, rfl⟩
  · rintro ⟨l, r, rfl, rfl, rfl⟩
    exact ⟨(l, r), Checked.cutBy?_utf8Size_append l r, rfl⟩

/-- A byte index is found exactly for the places of the text. -/
theorem byteIndex?_eq_none_iff : t.byteIndex? u = none ↔ ¬Addressable t u := by
  rw [byteIndex?, Option.map_eq_none_iff, Addressable, Bool.not_eq_true, Option.isSome_eq_false_iff,
    Option.isNone_iff_eq_none]

/-- What addresses no place is beyond the end or between the two units of a wide character. -/
theorem not_addressable_iff : ¬Addressable t u ↔ units t < u ∨ IsWithinPair t u := by
  constructor
  · intro h
    rcases Nat.lt_or_ge (units t) u with hlt | hle
    · exact .inl hlt
    · right
      -- the last place before the offset is one unit away, and a character starts there
      obtain ⟨l, r, rfl, hl⟩ := addressable_iff.1 (addressable_floor t u)
      have hbelow := floor_le (l ++ r) u
      have hnear := min_le_floor_add_one (l ++ r) u
      rw [Nat.min_eq_left hle] at hnear
      have hne : units l ≠ u := by
        rintro rfl
        exact h (addressable_append l r)
      cases r with
      | nil =>
        rw [List.append_nil] at hle
        omega
      | cons c r =>
        refine ⟨l, c, r, rfl, unitsOf_eq_two_iff.1 ?_, by omega⟩
        have hpos := unitsOf_pos c
        have htwo := unitsOf_le_two c
        have hone : unitsOf c ≠ 1 := by
          intro hc
          have hu : units (l ++ [c]) = u := by
            rw [units_append, units_cons, hc, units_nil]
            omega
          refine h (addressable_iff.2 ⟨l ++ [c], r, ?_, hu⟩)
          rw [List.append_assoc, List.singleton_append]
        omega
  · rintro (hlt | ⟨l, c, r, rfl, hc, rfl⟩) h
    · exact Nat.not_lt.2 h.le hlt
    · have hstep := h.le_of_lt (Nat.lt_succ_self _)
      rw [unitsOf_eq_two_iff.2 hc] at hstep
      omega

/-- Of two left parts of a text, the one with fewer units has fewer bytes. -/
theorem bytes_lt_bytes (h : l ++ r = l' ++ r') (hu : units l < units l') : bytes l < bytes l' := by
  obtain ⟨c, x, rfl, -⟩ := append_of_lt h hu
  have hpos := c.utf8Size_pos
  rw [bytes_append, bytes_cons]
  omega

/-- A byte index that an offset has stands between two characters, and the offset is its own. Each
boundary has an offset, and the byte index of that is the boundary. No byte index is found for
offsets beyond the end and between the two units of a wide character, and for no others. The byte
index of a later place is greater. -/
theorem indices_are_inverse (t : Text) :
    (∀ u b, t.byteIndex? u = some b → IsBoundary t b ∧ t.unitIndex? b = some u) ∧
    (∀ b, IsBoundary t b → ∃ u, t.unitIndex? b = some u ∧ t.byteIndex? u = some b) ∧
    (∀ u, t.byteIndex? u = none ↔ units t < u ∨ IsWithinPair t u) ∧
    ∀ u v a b, t.byteIndex? u = some a → t.byteIndex? v = some b → u < v → a < b := by
  refine ⟨fun u b h => ?_, ?_, fun u => ?_, fun u v a b ha hb huv => ?_⟩
  · have hplace := byteIndex?_eq_some_iff.1 h
    refine ⟨?_, unitIndex?_eq_some_iff.2 hplace⟩
    obtain ⟨l, r, hsplit, -, hbytes⟩ := hplace
    exact ⟨l, r, hsplit, hbytes⟩
  · rintro b ⟨l, r, hsplit, hbytes⟩
    have hplace : ∃ l' r', t = l' ++ r' ∧ units l' = units l ∧ bytes l' = b :=
      ⟨l, r, hsplit, rfl, hbytes⟩
    exact ⟨units l, unitIndex?_eq_some_iff.2 hplace, byteIndex?_eq_some_iff.2 hplace⟩
  · rw [byteIndex?_eq_none_iff, not_addressable_iff]
  · obtain ⟨l, r, hl, rfl, rfl⟩ := byteIndex?_eq_some_iff.1 ha
    obtain ⟨l', r', hl', rfl, rfl⟩ := byteIndex?_eq_some_iff.1 hb
    exact bytes_lt_bytes (hl.symm.trans hl') huv

/-- In a text of characters with one, two and four bytes: the end of the wide character has the
offset 3 and the byte index 6, and between its units there is no byte. -/
theorem indices_are_inverse_astral :
    (byteIndex? "é😀@a".toList 3 = some 6 ∧ IsBoundary "é😀@a".toList 6 ∧
      unitIndex? "é😀@a".toList 6 = some 3) ∧
    (∃ u, unitIndex? "é😀@a".toList 2 = some u ∧ byteIndex? "é😀@a".toList u = some 2) ∧
    byteIndex? "é😀@a".toList 2 = none ∧ byteIndex? "é😀@a".toList 6 = none ∧
    byteIndex? "é😀@a".toList 1 = some 2 ∧ (2 : Nat) < 6 := by
  obtain ⟨hindex, hboundary, hnone, hlt⟩ := indices_are_inverse "é😀@a".toList
  have hone : byteIndex? "é😀@a".toList 1 = some 2 := by decide
  have hthree : byteIndex? "é😀@a".toList 3 = some 6 := by decide
  have hpair : IsWithinPair "é😀@a".toList 2 := ⟨['é'], '😀', ['@', 'a'], rfl, by decide, rfl⟩
  exact ⟨⟨hthree, hindex 3 6 hthree⟩, hboundary 2 ⟨['é'], ['😀', '@', 'a'], rfl, by decide⟩,
    (hnone 2).2 (.inr hpair), (hnone 6).2 (.inl (by decide)), hone,
    hlt 1 3 2 6 hone hthree (by decide)⟩

end Mentions.Text
