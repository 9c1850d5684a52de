import Mentions.Proofs.Body
import Mentions.Growth.Repair

/-!
# Separators in a text

`Separated sep pos t cuts t'` says that `t'` is the text `t` with the separator at each of the
offsets `cuts`, where `t` starts at offset `pos`. The offsets are those of `t` itself, in increasing
order, so a separator that stands before an offset does not move it. `separate` makes such a text:
`Separated.separate_eq`. It inserts the last separator first for the same reason.

The length tells how many separators there are (`Separated.units_eq`). Those that a repair inserts
are invisible (`IsSeparator`), so they end every body before them (`IsSeparator.released`) and
change nothing that is displayed (`Separated.strip_eq`).
-/

namespace Mentions.Growth

open Text

variable {sep l t t' : Text} {pos : Nat} {cuts : List Nat}

/-- The text `t` from offset `pos` on, with a separator at each of the offsets. -/
inductive Separated (sep : Text) : Nat → Text → List Nat → Text → Prop
  /-- There is nothing to separate. -/
  | done {pos : Nat} {t : Text} : Separated sep pos t [] t
  /-- A separator stands at the first offset, and the others in the text behind it. -/
  | cut {pos : Nat} {l t t' : Text} {cuts : List Nat}
      (h : Separated sep (pos + units l) t cuts t') :
      Separated sep pos (l ++ t) ((pos + units l) :: cuts) (l ++ (sep ++ t'))

/-- A text before all separators stays as it is. -/
theorem Separated.append_left (h : Separated sep (pos + units l) t cuts t') :
    Separated sep pos (l ++ t) cuts (l ++ t') := by
  generalize hp : pos + units l = p at h
  cases h with
  | done => exact .done
  | @cut _ l' t₁ t₁' cuts h =>
    subst hp
    have hu : pos + units l + units l' = pos + units (l ++ l') := by
      rw [units_append, Nat.add_assoc]
    rw [hu] at h ⊢
    rw [← List.append_assoc, ← List.append_assoc]
    exact .cut h

/-- The separators go to the same places of a longer text, which starts at offset zero. -/
theorem Separated.separate_append (h : Separated sep pos t cuts t') (hl : units l = pos) :
    separate sep (l ++ t) cuts = l ++ t' := by
  induction h generalizing l with
  | done => rfl
  | @cut pos x t t' cuts _ ih =>
    have hx : units (l ++ x) = pos + units x := by rw [units_append, hl]
    have hdone : splice? (l ++ x ++ t') (pos + units x) (pos + units x) sep =
        some (l ++ x ++ sep ++ t') := by
      rw [← hx]
      exact splice?_append (l ++ x) [] t' sep
    rw [separate, ← List.append_assoc, ih hx, hdone, Option.getD_some]
    simp only [List.append_assoc]

/-- `separate` puts the separators where they belong. -/
theorem Separated.separate_eq (h : Separated sep 0 t cuts t') : separate sep t cuts = t' :=
  h.separate_append (l := []) rfl

/-- Each separator adds its length to that of the text. -/
theorem Separated.units_eq (h : Separated sep pos t cuts t') :
    units t' = units t + units sep * cuts.length := by
  induction h with
  | done => simp
  | cut _ ih =>
    simp only [units_append, List.length_cons, Nat.mul_add, ih]
    omega

/-! ## Invisible separators -/

/-- What a repair puts into a text: one or more invisible characters. -/
structure IsSeparator (sep : Text) : Prop where
  ne_nil : sep ≠ []
  chars : ∀ c ∈ sep, isZeroWidth c = true

theorem isSeparator_growthSeparator : IsSeparator growthSeparator :=
  ⟨List.cons_ne_nil _ _, List.all_eq_true.1 (by decide)⟩

/-- No body is continued behind a separator. -/
theorem IsSeparator.released (hsep : IsSeparator sep) (t : Text) : Released (sep ++ t) := by
  obtain ⟨c, x, rfl⟩ := List.exists_cons_of_ne_nil hsep.ne_nil
  exact released_cons (isBodyChar_of_isZeroWidth (hsep.chars c (by simp)))

/-- The separators are not displayed. -/
theorem Separated.strip_eq (hsep : IsSeparator sep) (h : Separated sep pos t cuts t') :
    strip t' = strip t := by
  induction h with
  | done => rfl
  | cut _ ih =>
    rw [strip_append, strip_append, strip_eq_nil_iff.2 hsep.chars, List.nil_append, ih,
      strip_append]

/-- A text without a separator is the text itself, and no other one is. -/
theorem Separated.eq_iff (hsep : IsSeparator sep) (h : Separated sep pos t cuts t') :
    t' = t ↔ cuts = [] := by
  constructor
  · rintro rfl
    have hu := h.units_eq
    have := units_pos hsep.ne_nil
    have hzero : units sep * cuts.length = 0 := by omega
    rcases Nat.mul_eq_zero.1 hzero with h0 | h0
    · omega
    · exact List.length_eq_zero_iff.1 h0
  · rintro rfl
    cases h with
    | done => rfl

end Mentions.Growth
