import Mathlib.Order.Bounds.Basic
import Mentions.Proofs.Checked.Scan
import Mentions.Proofs.Scan.Append

/-!
# The longest body within a limit

A number of characters is *admissible* for a text if the text has that many, all of them are body
characters and the last one is a word character (`Admissible`). Apart from zero these numbers are
the lengths of the bodies at the head of the text (`admissible_iff`), and `bodyLength` is the
greatest of them within the limit (`isGreatest_bodyLength`). So a wider limit can only admit more,
and what follows a text matters only if it starts with a body character, since a body reaches across
no other one (`admissible_append_iff`).

Main statement: `body_length_is_longest`.
-/

namespace Mentions

open Text

variable {b r t : Text} {n limit : Nat}

/-! ## Admissible numbers of characters -/

/-- The first `n` characters of a text are there, all of them are body characters, and the last one
is a word character, if there is one. -/
structure Admissible (t : Text) (n : Nat) : Prop where
  length_le : n ≤ t.length
  chars : ∀ c ∈ t.take n, isBodyChar c = true
  last : n = 0 ∨ ∃ c, t[n - 1]? = some c ∧ isWordChar c = true

/-- The length of a body at the head of a text is admissible. -/
theorem IsBody.admissible (hb : IsBody b) (r : Text) : Admissible (b ++ r) b.length where
  length_le := by simp
  chars := by
    rw [List.take_left]
    exact hb.chars
  last := by
    obtain ⟨l, c, rfl, hc⟩ := hb.exists_concat
    exact .inr ⟨c, by simp, hc⟩

/-- The first characters of a text, if there are any and their number is admissible, are a body. -/
theorem Admissible.isBody_take (h : Admissible t n) (hn : n ≠ 0) : IsBody (t.take n) := by
  obtain ⟨c, hc, hword⟩ := h.last.resolve_left hn
  have hsplit : t.take n = t.take (n - 1) ++ [c] := by
    obtain ⟨k, rfl⟩ := Nat.exists_eq_succ_of_ne_zero hn
    rw [Nat.succ_sub_one] at hc
    rw [List.take_add_one, hc]
    rfl
  have hchars := h.chars
  rw [hsplit] at hchars ⊢
  exact isBody_concat_iff.2 ⟨fun d hd => hchars d (List.mem_append_left _ hd), hword⟩

/-- The admissible numbers are zero and the lengths of the bodies at the head of the text. -/
theorem admissible_iff : Admissible t n ↔ n = 0 ∨ ∃ b r, t = b ++ r ∧ IsBody b ∧ b.length = n := by
  constructor
  · intro h
    by_cases hn : n = 0
    · exact .inl hn
    · exact .inr ⟨t.take n, t.drop n, (List.take_append_drop n t).symm, h.isBody_take hn,
        List.length_take_of_le h.length_le⟩
  · rintro (rfl | ⟨b, r, rfl, hb, rfl⟩)
    · exact ⟨Nat.zero_le _, by simp, .inl rfl⟩
    · exact hb.admissible r

/-- No body reaches from a text into one behind it that starts with no body character. -/
theorem admissible_append_iff (hr : ¬StartsWithBodyChar r) :
    Admissible (t ++ r) n ↔ Admissible t n := by
  rw [admissible_iff, admissible_iff]
  refine or_congr_right ⟨?_, ?_⟩
  · rintro ⟨b, r', he, hb, hn⟩
    rcases List.append_eq_append_iff.1 he with ⟨x, rfl, rfl⟩ | ⟨x, rfl, rfl⟩
    · cases x with
      | nil => exact ⟨t, [], (List.append_nil t).symm, by simpa using hb, by simpa using hn⟩
      | cons c x =>
        refine absurd (startsWithBodyChar_cons_iff.2 (hb.chars c ?_)) hr
        exact List.mem_append_right _ List.mem_cons_self
    · exact ⟨b, x, rfl, hb, hn⟩
  · rintro ⟨b, r', rfl, hb, hn⟩
    exact ⟨b, r' ++ r, List.append_assoc _ _ _, hb, hn⟩

/-! ## The greatest one within a limit -/

/-- The longest body within a limit is the longest one that is admissible within it. -/
theorem isGreatest_bodyLength (t : Text) (limit : Nat) :
    IsGreatest {n | n ≤ limit ∧ Admissible t n} (bodyLength t limit) := by
  obtain ⟨r, hr, -⟩ := exists_body_append (t.take limit)
  have hsplit : t = body (t.take limit) ++ (r ++ t.drop limit) := by
    rw [← List.append_assoc, ← hr, List.take_append_drop]
  constructor
  · constructor
    · have hprefix : body (t.take limit) <+: t.take limit := ⟨r, hr.symm⟩
      exact hprefix.length_le.trans (List.length_take_le _ _)
    · rw [admissible_iff]
      by_cases hnil : body (t.take limit) = []
      · exact .inl (congrArg List.length hnil)
      · exact .inr ⟨_, _, hsplit, isBody_body hnil, rfl⟩
  · rintro n ⟨hle, hn⟩
    rcases admissible_iff.1 hn with rfl | ⟨b, r', rfl, hb, rfl⟩
    · exact Nat.zero_le _
    · have htake : (b ++ r').take limit = b ++ r'.take (limit - b.length) := by
        rw [List.take_append, List.take_of_length_le hle]
      rw [bodyLength, htake]
      exact (hb.isPrefix_body _).length_le

/-- The length of the longest body at the head of a text within a limit is the greatest number up to
the limit such that so many characters are there, all of them body characters, the last one a word
character. It counts characters, bytes and units of that body alike. A wider limit does not make the
body shorter; it is the same if the text is cut at the limit first and the limit then dropped, and
if a text is written behind that starts with no body character. -/
theorem body_length_is_longest (t : Text) (limit : Nat) :
    IsGreatest {n | n ≤ limit ∧ Admissible t n} (bodyLength t limit) ∧
    (t.take (bodyLength t limit)).length = bodyLength t limit ∧
    bytes (t.take (bodyLength t limit)) = bodyLength t limit ∧
    units (t.take (bodyLength t limit)) = bodyLength t limit ∧
    Monotone (bodyLength t) ∧
    (∀ n, (t.take limit).length ≤ n → bodyLength (t.take limit) n = bodyLength t limit) ∧
    ∀ r, ¬StartsWithBodyChar r → bodyLength (t ++ r) limit = bodyLength t limit := by
  have hgreatest := isGreatest_bodyLength t limit
  obtain ⟨-, hlen, hchars, -⟩ := hgreatest.1
  have hlength := List.length_take_of_le hlen
  refine ⟨hgreatest, hlength, ?_, ?_, fun m n hmn => ?_, fun n hn => ?_, fun r hr => ?_⟩
  · rw [Checked.bytes_eq_length hchars, hlength]
  · rw [units_eq_length hchars, hlength]
  · refine (isGreatest_bodyLength t m).mono (isGreatest_bodyLength t n) ?_
    rintro k ⟨hk, hadm⟩
    exact ⟨hk.trans hmn, hadm⟩
  · rw [bodyLength, List.take_of_length_le hn]
    rfl
  · have hbehind := isGreatest_bodyLength (t ++ r) limit
    simp only [admissible_append_iff hr] at hbehind
    exact hbehind.unique hgreatest

/-- Of `ab.-c` with the limit 4, which also keeps the full stop and the hyphen, the body is `ab`;
the wide character behind the text changes nothing. -/
theorem body_length_is_longest_released :
    bodyLength "ab.-c".toList 4 = 2 ∧ Admissible "ab.-c".toList 2 ∧
    bodyLength "ab.-c".toList 4 ≤ bodyLength "ab.-c".toList 5 ∧
    bodyLength "ab.-".toList maxOffset = 2 ∧
    bodyLength "ab.-c😀d".toList 4 = bodyLength "ab.-c".toList 4 := by
  obtain ⟨hgreatest, -, -, -, hmono, hcut, hbehind⟩ := body_length_is_longest "ab.-c".toList 4
  have htwo : bodyLength "ab.-c".toList 4 = 2 := by decide
  have hadm := hgreatest.1.2
  rw [htwo] at hadm hcut
  exact ⟨htwo, hadm, hmono (by decide), hcut maxOffset (by decide),
    hbehind "😀d".toList (by decide)⟩

end Mentions
