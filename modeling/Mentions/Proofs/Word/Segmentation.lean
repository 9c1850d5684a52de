import Mathlib.Data.List.TakeWhile
import Mentions.Proofs.Text.Place
import Mentions.Word.Piece

/-!
# Word jumps over any segmentation

A word jump asks nothing of the pieces of a text but that they stand in a row and make up the text,
which is what a `Segmentation` is. If all pieces on the side of the jump are blank, so is the text
there (`isBlank_flatten_iff`), and no jump is made. Otherwise the jump lands within the text,
strictly beyond the cursor (`Segmentation.landsLeft`, `Segmentation.landsRight`), since a piece that
is not blank is not empty. Most of what is said of edits needs only that the landing is a place on
the side of the jump (`Segmentation.previousStart?_spec`, `Segmentation.nextEnd?_spec`).

Main statement: `jumps_are_well_placed`.
-/

namespace Mentions.Word

open Text

variable {t p : Text} {ps earlier later : List Text} {u v : Nat}

/-! ## Blank pieces -/

/-- A text that is not blank is not empty. -/
theorem ne_nil_of_isBlank_eq_false (h : isBlank p = false) : p ≠ [] := by
  rintro rfl
  cases h

/-- Pieces make up a blank text exactly if each of them is blank. -/
theorem isBlank_flatten_iff : isBlank ps.flatten = true ↔ ∀ p ∈ ps, isBlank p = true := by
  simp only [isBlank, List.all_eq_true, List.mem_flatten]
  constructor
  · exact fun h p hp c hc => h c ⟨p, hp, hc⟩
  · rintro h c ⟨p, hp, hc⟩
    exact h p hp c hc

/-- A piece that is not blank is part of no blank text. -/
theorem not_isBlank_flatten (hmem : p ∈ ps) (hp : isBlank p = false) :
    ¬isBlank ps.flatten = true := by
  intro h
  rw [isBlank_flatten_iff.1 h p hmem] at hp
  cases hp

/-- All pieces are blank, or there is a first one that is not. -/
theorem exists_first_not_blank (ps : List Text) :
    isBlank ps.flatten = true ∨ ∃ earlier p later, ps = earlier ++ p :: later ∧
      isBlank earlier.flatten = true ∧ isBlank p = false := by
  cases hd : ps.dropWhile isBlank with
  | nil => exact .inl (isBlank_flatten_iff.2 (List.dropWhile_eq_nil_iff.1 hd))
  | cons p later =>
    have hp := List.head?_dropWhile_not isBlank ps
    rw [hd] at hp
    refine .inr ⟨ps.takeWhile isBlank, p, later, ?_, ?_, hp⟩
    · rw [← hd, List.takeWhile_append_dropWhile]
    · exact isBlank_flatten_iff.2 fun q hq => List.mem_takeWhile_imp (p := isBlank) hq

/-- All pieces are blank, or there is a last one that is not. -/
theorem exists_last_not_blank (ps : List Text) :
    isBlank ps.flatten = true ∨ ∃ earlier p later, ps = earlier ++ p :: later ∧
      isBlank later.flatten = true ∧ isBlank p = false := by
  have hreverse : ∀ qs : List Text, isBlank qs.reverse.flatten = isBlank qs.flatten := fun qs =>
    Bool.eq_iff_iff.2 (by simp only [isBlank_flatten_iff, List.mem_reverse])
  rcases exists_first_not_blank ps.reverse with hblank | ⟨later, p, earlier, hps, hlater, hp⟩
  · exact .inl (by rwa [hreverse] at hblank)
  · refine .inr ⟨earlier.reverse, p, later.reverse, ?_, by rwa [hreverse], hp⟩
    rw [← List.reverse_reverse ps, hps, List.reverse_append, List.reverse_cons, List.append_assoc,
      List.singleton_append]

/-! ## Searching pieces -/

theorem firstEndOf?_of_isBlank (h : isBlank ps.flatten = true) : firstEndOf? ps = none := by
  rw [firstEndOf?, List.dropWhile_eq_nil_iff.2 (isBlank_flatten_iff.1 h)]

theorem lastStartOf?_of_isBlank (h : isBlank ps.flatten = true) : lastStartOf? ps = none := by
  have hblank : ∀ p ∈ ps.reverse, isBlank p = true := fun p hp =>
    isBlank_flatten_iff.1 h p (List.mem_reverse.1 hp)
  rw [lastStartOf?, List.dropWhile_eq_nil_iff.2 hblank]

theorem firstEndOf?_append (h : isBlank earlier.flatten = true) (hp : isBlank p = false) :
    firstEndOf? (earlier ++ p :: later) = some (units earlier.flatten + units p) := by
  have hp' : ¬isBlank p = true := by simp [hp]
  have hblank := isBlank_flatten_iff.1 h
  rw [firstEndOf?, List.dropWhile_append_of_pos hblank, List.dropWhile_cons_of_neg hp',
    List.takeWhile_append_of_pos hblank, List.takeWhile_cons_of_neg hp', List.append_nil]

theorem lastStartOf?_append (h : isBlank later.flatten = true) (hp : isBlank p = false) :
    lastStartOf? (earlier ++ p :: later) = some (units earlier.flatten) := by
  have hp' : ¬isBlank p = true := by simp [hp]
  have hblank : ∀ q ∈ later.reverse, isBlank q = true := fun q hq =>
    isBlank_flatten_iff.1 h q (List.mem_reverse.1 hq)
  rw [lastStartOf?, List.reverse_append, List.reverse_cons, List.append_assoc,
    List.dropWhile_append_of_pos hblank, List.singleton_append, List.dropWhile_cons_of_neg hp']
  simp only [List.reverse_reverse]

/-! ## Where jumps land -/

/-- Where a jump to the left from between two texts ends up: nowhere if the text before it is blank,
and otherwise at a place before it, where a piece starts that is not blank and has nothing but blank
text behind it. -/
structure LandsLeft (s : Segmentation) (before after : Text) (v? : Option Nat) : Prop where
  eq_none_iff : v? = none ↔ isBlank before = true
  of_eq_some : ∀ v, v? = some v →
    Addressable (before ++ after) v ∧ v < units before ∧
      ∃ earlier p later, s.pieces before = earlier ++ p :: later ∧ units earlier.flatten = v ∧
        isBlank p = false ∧ isBlank later.flatten = true

/-- Where a jump to the right from between two texts ends up: nowhere if the text after it is blank,
and otherwise at a place after it, where a piece ends that is not blank and has nothing but blank
text before it. -/
structure LandsRight (s : Segmentation) (before after : Text) (v? : Option Nat) : Prop where
  eq_none_iff : v? = none ↔ isBlank after = true
  of_eq_some : ∀ v, v? = some v →
    Addressable (before ++ after) v ∧ units before < v ∧ v ≤ units (before ++ after) ∧
      ∃ earlier p later, s.pieces after = earlier ++ p :: later ∧
        units before + units (earlier ++ [p]).flatten = v ∧
        isBlank p = false ∧ isBlank earlier.flatten = true

namespace Segmentation

/-- Between two texts, a jump to the left searches the pieces of the first one. -/
theorem previousStart?_append (s : Segmentation) (l r : Text) :
    s.previousStart? (l ++ r) (units l) = lastStartOf? (s.pieces l) := by
  simp only [previousStart?, cut?_append, Option.bind_eq_bind, Option.bind_some]

/-- Between two texts, a jump to the right searches the pieces of the second one. -/
theorem nextEnd?_append (s : Segmentation) (l r : Text) :
    s.nextEnd? (l ++ r) (units l) = (firstEndOf? (s.pieces r)).map fun n => units l + n := by
  simp only [nextEnd?, cut?_append, Option.bind_eq_bind, Option.bind_some, Option.map_eq_bind]
  rfl

theorem landsLeft (s : Segmentation) (l r : Text) :
    LandsLeft s l r (s.previousStart? (l ++ r) (units l)) := by
  rw [previousStart?_append]
  have hl := s.flatten_pieces l
  rcases exists_last_not_blank (s.pieces l) with hblank | ⟨earlier, p, later, hps, hlater, hp⟩
  · rw [lastStartOf?_of_isBlank hblank]
    rw [hl] at hblank
    exact ⟨iff_of_true rfl hblank, nofun⟩
  · have hnot : ¬isBlank l = true := by
      rw [← hl]
      exact not_isBlank_flatten (by simp [hps]) hp
    rw [hps, List.flatten_append, List.flatten_cons] at hl
    rw [hps, lastStartOf?_append hlater hp]
    refine ⟨iff_of_false nofun hnot, fun v hv => ?_⟩
    obtain rfl := Option.some.inj hv
    have hpos := units_pos (ne_nil_of_isBlank_eq_false hp)
    subst hl
    refine ⟨?_, ?_, earlier, p, later, hps, rfl, hp, hlater⟩
    · rw [List.append_assoc]
      exact addressable_append _ _
    · simp only [units_append]
      omega

theorem landsRight (s : Segmentation) (l r : Text) :
    LandsRight s l r (s.nextEnd? (l ++ r) (units l)) := by
  rw [nextEnd?_append]
  have hr := s.flatten_pieces r
  rcases exists_first_not_blank (s.pieces r) with hblank | ⟨earlier, p, later, hps, hearlier, hp⟩
  · rw [firstEndOf?_of_isBlank hblank]
    rw [hr] at hblank
    exact ⟨iff_of_true rfl hblank, nofun⟩
  · have hnot : ¬isBlank r = true := by
      rw [← hr]
      exact not_isBlank_flatten (by simp [hps]) hp
    rw [hps, List.flatten_append, List.flatten_cons] at hr
    rw [hps, firstEndOf?_append hearlier hp, Option.map_some]
    refine ⟨iff_of_false nofun hnot, fun v hv => ?_⟩
    obtain rfl := Option.some.inj hv
    have hpos := units_pos (ne_nil_of_isBlank_eq_false hp)
    subst hr
    refine ⟨?_, by omega, ?_, earlier, p, later, hps, ?_, hp, hearlier⟩
    · have hend := (addressable_append (earlier.flatten ++ p) later.flatten).append_left l
      rwa [units_append, List.append_assoc] at hend
    · simp only [units_append]
      omega
    · simp only [List.flatten_append, List.flatten_singleton, units_append]

/-- A jump to the left lands at a place of the buffer before the cursor. -/
theorem previousStart?_spec (s : Segmentation) (hu : Addressable t u)
    (h : s.previousStart? t u = some v) : Addressable t v ∧ v < u := by
  obtain ⟨l, r, rfl, rfl⟩ := addressable_iff.1 hu
  obtain ⟨hplace, hlt, -⟩ := (s.landsLeft l r).of_eq_some v h
  exact ⟨hplace, hlt⟩

/-- A jump to the right lands at a place of the buffer behind the cursor. -/
theorem nextEnd?_spec (s : Segmentation) (hu : Addressable t u) (h : s.nextEnd? t u = some v) :
    Addressable t v ∧ u < v := by
  obtain ⟨l, r, rfl, rfl⟩ := addressable_iff.1 hu
  obtain ⟨hplace, hlt, -⟩ := (s.landsRight l r).of_eq_some v h
  exact ⟨hplace, hlt⟩

end Segmentation

/-- At every place of a buffer and over every segmentation, a jump to the left is made unless the
text before the cursor is blank, and a jump to the right unless the text after it is. It lands at a
place of the buffer strictly beyond the cursor, on the far side of a piece that is not blank, and
has passed over nothing else but blank text. So do the jumps of the standard segmenter, over the
default word boundaries. -/
theorem jumps_are_well_placed (hu : Addressable t u) :
    ∃ before after, t = before ++ after ∧ units before = u ∧
      (∀ s : Segmentation,
        LandsLeft s before after (s.previousStart? t u) ∧
        LandsRight s before after (s.nextEnd? t u)) ∧
      LandsLeft .backward before after (Segmenter.standard.backward.previousStart? t u) ∧
      LandsRight .forward before after (Segmenter.standard.forward.nextEnd? t u) := by
  obtain ⟨l, r, rfl, rfl⟩ := addressable_iff.1 hu
  refine ⟨l, r, rfl, rfl, fun s => ⟨s.landsLeft l r, s.landsRight l r⟩, ?_, ?_⟩
  · exact Segmentation.backward.landsLeft l r
  · exact Segmentation.forward.landsRight l r

/-- Before the place 7 stand a letter, a pictograph, two spaces, a letter and a space. A jump to the
left from there passes over the space and lands before the letter, one to the right from place 1
lands behind the pictograph, and from the end of the text none is made. -/
theorem jumps_are_well_placed_astral :
    Segmenter.standard.backward.previousStart? "é😀  b \n".toList 7 = some 5 ∧
    (∃ earlier p later, Segmentation.backward.pieces "é😀  b ".toList = earlier ++ p :: later ∧
      units earlier.flatten = 5 ∧ isBlank p = false ∧ isBlank later.flatten = true) ∧
    Segmenter.standard.forward.nextEnd? "é😀  b \n".toList 1 = some 3 ∧
    Segmenter.standard.forward.nextEnd? "é😀  b \n".toList 7 = none := by
  have hleft : Segmenter.standard.backward.previousStart? "é😀  b \n".toList 7 = some 5 := by
    decide +kernel
  have hright : Segmenter.standard.forward.nextEnd? "é😀  b \n".toList 1 = some 3 := by
    decide +kernel
  have hu : Addressable "é😀  b \n".toList 7 := by decide
  obtain ⟨before, after, hsplit, hunits, -, hl, hr⟩ := jumps_are_well_placed hu
  obtain ⟨rfl, rfl⟩ := append_inj_of_units_eq (l := "é😀  b ".toList) (r := ['\n']) hsplit (by
    rw [hunits]
    decide)
  obtain ⟨-, -, hpiece⟩ := hl.of_eq_some 5 hleft
  exact ⟨hleft, hpiece, hright, hr.eq_none_iff.2 (by decide)⟩

end Mentions.Word
