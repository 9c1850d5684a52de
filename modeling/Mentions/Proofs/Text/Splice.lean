import Mentions.Proofs.Text.Place

/-!
# Replacing a part of a text

A host says where to edit in UTF-16 units, and a text is cut between its characters, so a
replacement is made between two places in order and refused between any other two offsets
(`Text.splice?_eq_none_iff`). What stands before the first of them is left as it is: each offset up
to there addresses the same byte as before (`Text.byteIndex?_append_of_le`), in whatever mix of
narrow and wide characters. What stands behind the second is moved as a whole, by as many units as
the new text has more than the old one. So a replacement can be undone (`Text.splice?_append_undo`),
and of two insertions the one on the right may be made first, with both offsets as they are, or
last, with its offset moved by what was inserted on the left (`Text.splice?_insert_insert`).

Main statement: `splice_is_exact`.
-/

namespace Mentions.Text

variable {t l r : Text} {u v : Nat}

/-- A replacement is refused between two offsets in the wrong order, or where one of them addresses
no place. -/
theorem splice?_eq_none_iff {new : Text} :
    splice? t u v new = none ↔ v < u ∨ ¬Addressable t u ∨ ¬Addressable t v := by
  constructor
  · intro h
    rcases Nat.lt_or_ge v u with hlt | huv
    · exact .inl hlt
    · refine .inr (Decidable.not_and_iff_not_or_not.1 fun ⟨hu, hv⟩ => ?_)
      obtain ⟨l, x, r, rfl, rfl, rfl⟩ := exists_append_append hu hv huv
      rw [splice?_append] at h
      cases h
  · intro h
    refine Option.eq_none_iff_forall_ne_some.2 fun t' ht' => ?_
    obtain ⟨l, x, r, rfl, rfl, rfl, -⟩ := splice?_eq_some_iff.1 ht'
    rcases h with hlt | hu | hv
    · omega
    · exact hu (addressable_append l (x ++ r))
    · exact hv ((addressable_append x r).append_left l)

/-- Up to the end of a left part an offset addresses the byte that it addresses in this part. -/
theorem byteIndex?_append_of_le (h : u ≤ units l) (r : Text) :
    byteIndex? (l ++ r) u = byteIndex? l u := by
  rw [byteIndex?, byteIndex?, cut?_append_of_le h]
  cases cut? l u <;> rfl

/-- A replacement is undone by putting the old text back in place of the new one. -/
theorem splice?_append_undo (l x r new : Text) :
    splice? (l ++ new ++ r) (units l) (units l + units new) x = some (l ++ (x ++ r)) := by
  rw [List.append_assoc, splice?_append, List.append_assoc]

/-- Two texts are inserted from right to left at their offsets, and from left to right with the
second offset behind the text that was inserted first. -/
theorem splice?_insert_insert (l m r x y : Text) :
    let a := units l
    let b := units l + units m
    (splice? (l ++ (m ++ r)) b b y).bind (splice? · a a x) = some (l ++ x ++ (m ++ y ++ r)) ∧
      (splice? (l ++ (m ++ r)) a a x).bind (splice? · (b + units x) (b + units x) y) =
        some (l ++ x ++ (m ++ y ++ r)) := by
  intro a b
  constructor
  · rw [splice?_append_add, splice?_insert]
    exact splice?_insert l (m ++ y ++ r) x
  · have hb : b + units x = units (l ++ x) + units m := by
      rw [units_append]
      omega
    rw [splice?_insert, Option.bind_some, hb, splice?_append_add, splice?_insert]
    rfl

/-- **Splicing is exact, keeps account of lengths and can be undone.** It is refused exactly if the
offsets are in the wrong order or one of them addresses no place. Otherwise it gives the text before
the first offset, the new text, and the text from the second offset on; lengths add up in UTF-16
units, both ends of the new text are places, no offset up to the first end addresses another byte
than before, and to put the removed text back gives the text that was there. Two insertions commute,
if the offset on the right is moved by the text that is inserted on the left. -/
theorem splice_is_exact (t new : Text) (start stop : Nat) :
    (t.splice? start stop new = none ↔
      stop < start ∨ ¬Addressable t start ∨ ¬Addressable t stop) ∧
    (∀ t', t.splice? start stop new = some t' →
      ∃ before removed behind, t.slice? 0 start = some before ∧
        t.slice? start stop = some removed ∧ t.tail? stop = some behind ∧
        t' = before ++ new ++ behind ∧
        units t' = units t - (stop - start) + units new ∧
        Addressable t' start ∧ Addressable t' (start + units new) ∧
        (∀ u ≤ start, t'.byteIndex? u = t.byteIndex? u) ∧
        t'.splice? start (start + units new) removed = some t) ∧
    ∀ a b x y, a ≤ b → Addressable t a → Addressable t b →
      ∃ t', (t.splice? b b y).bind (splice? · a a x) = some t' ∧
        (t.splice? a a x).bind (splice? · (b + units x) (b + units x) y) = some t' := by
  refine ⟨splice?_eq_none_iff, fun t' h => ?_, fun a b x y hab ha hb => ?_⟩
  · obtain ⟨l, x, r, rfl, rfl, rfl, rfl⟩ := splice?_eq_some_iff.1 h
    have hbefore : slice? (l ++ (x ++ r)) 0 (units l) = some l := by
      simpa using slice?_append [] l (x ++ r)
    have hbehind : tail? (l ++ (x ++ r)) (units l + units x) = some r := by
      rw [tail?_append_add, tail?_append]
    refine ⟨l, x, r, hbefore, slice?_append l x r, hbehind, rfl, ?_, ?_, ?_, fun u hu => ?_,
      splice?_append_undo l x r new⟩
    · simp only [units_append]
      omega
    · rw [List.append_assoc]
      exact addressable_append l (new ++ r)
    · rw [List.append_assoc]
      exact (addressable_append new r).append_left l
    · rw [List.append_assoc, byteIndex?_append_of_le hu, byteIndex?_append_of_le hu]
  · obtain ⟨l, m, r, rfl, rfl, rfl⟩ := exists_append_append ha hb hab
    exact ⟨_, splice?_insert_insert l m r x y⟩

/-- One wide character is put in place of another one, and text is inserted at both of its ends. No
text is inserted between the two units of the character. -/
theorem splice_is_exact_astral :
    splice? "é😀@a".toList 2 3 "b".toList = none ∧
    splice? "é😀@a".toList 1 3 "𝕏b".toList = some "é𝕏b@a".toList ∧
    splice? "é𝕏b@a".toList 1 4 "😀".toList = some "é😀@a".toList ∧
    (∀ u ≤ 1, byteIndex? "é𝕏b@a".toList u = byteIndex? "é😀@a".toList u) ∧
    ∃ t', (splice? "é😀@a".toList 3 3 "c".toList).bind (splice? · 1 1 "𝕏b".toList) = some t' ∧
      (splice? "é😀@a".toList 1 1 "𝕏b".toList).bind (splice? · 6 6 "c".toList) = some t' := by
  have hdone : splice? "é😀@a".toList 1 3 "𝕏b".toList = some "é𝕏b@a".toList := by decide
  obtain ⟨hrefused, -, -⟩ := splice_is_exact "é😀@a".toList "b".toList 2 3
  obtain ⟨-, hexact, hinsert⟩ := splice_is_exact "é😀@a".toList "𝕏b".toList 1 3
  obtain ⟨before, removed, behind, -, hremoved, -, -, -, -, -, hbytes, hundo⟩ := hexact _ hdone
  obtain rfl : removed = "😀".toList := Option.some.inj (hremoved.symm.trans (by decide))
  exact ⟨hrefused.2 (.inr (.inl (by decide))), hdone, hundo, hbytes,
    hinsert 1 3 "𝕏b".toList "c".toList (by decide) (by decide) (by decide)⟩

end Mentions.Text
