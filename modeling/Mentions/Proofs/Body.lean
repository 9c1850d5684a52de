import Mathlib.Data.List.TakeWhile
import Mentions.Proofs.Text.Place
import Mentions.Grammar

/-!
# Bodies

`IsBody` says what may follow a marker in a mention, and `Released` what the text after a body may
be like so that nothing of it belongs to the body: the body characters at its head are full stops
and hyphens. `exists_body_append` cuts any text into its longest body and a released rest, and
`body_append` says that this cut is the only one. So a text has a body at its head exactly if it is
not released (`body_eq_nil_iff`), and whether it is depends on nothing but the body characters at
its head (`Released.of_takeWhile_eq`). No invisible character belongs to a body, so a mention is
displayed as it stands (`IsBody.strip_cons`).
-/

namespace Mentions

variable {p : Char → Bool} {c : Char} {b l r t t' : Text}

/-! ## The text through the last character of a kind -/

/-- A character is taken if one is taken after it, or if it is of the kind itself. -/
theorem takeThrough_cons (p : Char → Bool) (c : Char) (t : Text) :
    takeThrough p (c :: t) =
      if takeThrough p t = [] then if p c then [c] else [] else c :: takeThrough p t := by
  rw [takeThrough]
  cases takeThrough p t <;> simp

/-- Nothing is taken from a text without a character of the kind. -/
theorem takeThrough_eq_nil_iff : takeThrough p t = [] ↔ ∀ c ∈ t, p c = false := by
  induction t with
  | nil => simp [takeThrough]
  | cons c t ih =>
    rw [List.forall_mem_cons, ← ih, takeThrough_cons]
    split
    · next h => cases hc : p c <;> simp [h]
    · next h => simp [h]

/-- A text is taken whole if it ends in a character of the kind. -/
theorem takeThrough_concat (h : p c = true) : takeThrough p (l ++ [c]) = l ++ [c] := by
  induction l with
  | nil => simp [takeThrough, h]
  | cons d l ih =>
    rw [List.cons_append, takeThrough_cons, ih]
    simp

/-- A text without a character of the kind changes nothing behind another one. -/
theorem takeThrough_append (h : ∀ c ∈ r, p c = false) :
    takeThrough p (l ++ r) = takeThrough p l := by
  induction l with
  | nil => simpa [takeThrough] using takeThrough_eq_nil_iff.2 h
  | cons d l ih => rw [List.cons_append, takeThrough_cons, takeThrough_cons, ih]

/-- A left part that ends in a character of the kind is taken, and more of what follows it. -/
theorem takeThrough_append_cons (hc : p c = true) :
    takeThrough p (l ++ c :: r) = l ++ c :: takeThrough p r := by
  induction l with
  | nil =>
    rw [List.nil_append, takeThrough_cons, if_pos hc]
    split
    · next h => rw [h]; rfl
    · rfl
  | cons d l ih =>
    rw [List.cons_append, takeThrough_cons, ih, if_neg (by simp)]
    rfl

/-- A text is what is taken from it and a rest without a character of the kind. -/
theorem exists_takeThrough_append (p : Char → Bool) (t : Text) :
    ∃ r, t = takeThrough p t ++ r ∧ ∀ c ∈ r, p c = false := by
  induction t with
  | nil => exact ⟨[], rfl, by simp⟩
  | cons c t ih =>
    obtain ⟨r, ht, hr⟩ := ih
    rw [takeThrough_cons]
    split
    · next h =>
      rw [h, List.nil_append] at ht
      subst ht
      cases hc : p c with
      | true => exact ⟨t, by simp, hr⟩
      | false => exact ⟨c :: t, by simp, List.forall_mem_cons.2 ⟨hc, hr⟩⟩
    · exact ⟨r, by rw [List.cons_append, ← ht], hr⟩

/-- What is taken ends in a character of the kind. -/
theorem exists_takeThrough_eq_concat (h : takeThrough p t ≠ []) :
    ∃ l c, takeThrough p t = l ++ [c] ∧ p c = true := by
  induction t with
  | nil => exact absurd rfl h
  | cons c t ih =>
    rw [takeThrough_cons] at h ⊢
    split at h
    · next ht =>
      cases hc : p c with
      | true => exact ⟨[], c, by simp [ht], hc⟩
      | false => simp [hc] at h
    · next ht =>
      obtain ⟨l, d, hd, hp⟩ := ih ht
      exact ⟨c :: l, d, by rw [if_neg ht, hd, List.cons_append], hp⟩

/-! ## Body characters -/

/-- A character that may end a body may stand in one. -/
theorem isBodyChar_of_isWordChar (h : isWordChar c = true) : isBodyChar c = true := by
  simp only [isWordChar, Bool.or_eq_true, decide_eq_true_eq] at h
  rcases h with h | h <;> simp [isBodyChar, h]

/-- The body characters that may not end a body are the full stop and the hyphen. -/
theorem isWordChar_eq_false_iff (h : isBodyChar c = true) :
    isWordChar c = false ↔ c = '.' ∨ c = '-' := by
  constructor
  · intro hw
    simp only [isWordChar, Bool.or_eq_false_iff, decide_eq_false_iff_not] at hw
    simpa [isBodyChar, hw.1, hw.2] using h
  · rintro (rfl | rfl) <;> decide

/-- Body characters are ASCII, and neither control characters nor the space. -/
theorem toNat_of_isBodyChar (h : isBodyChar c = true) : 32 < c.toNat ∧ c.toNat < 128 := by
  simp only [isBodyChar, Bool.or_eq_true, decide_eq_true_eq] at h
  rcases h with ((h | rfl) | rfl) | rfl
  · have hA : 'A'.val.toNat = 65 := rfl
    have hZ : 'Z'.val.toNat = 90 := rfl
    have ha : 'a'.val.toNat = 97 := rfl
    have hz : 'z'.val.toNat = 122 := rfl
    have h0 : '0'.val.toNat = 48 := rfl
    have h9 : '9'.val.toNat = 57 := rfl
    delta Char.isAlphanum Char.isAlpha Char.isUpper Char.isLower Char.isDigit at h
    simp only [Bool.or_eq_true, Bool.and_eq_true, decide_eq_true_eq, ge_iff_le,
      UInt32.le_iff_toNat_le] at h
    show 32 < c.val.toNat ∧ c.val.toNat < 128
    omega
  all_goals decide

theorem toNat_lt_of_isBodyChar (h : isBodyChar c = true) : c.toNat < 128 :=
  (toNat_of_isBodyChar h).2

/-- A body character takes one unit. -/
theorem unitsOf_of_isBodyChar (h : isBodyChar c = true) : Text.unitsOf c = 1 := by
  have := toNat_lt_of_isBodyChar h
  exact if_pos (by omega)

/-- A run of body characters has as many units as characters. -/
theorem units_eq_length (h : ∀ c ∈ b, isBodyChar c = true) : Text.units b = b.length := by
  induction b with
  | nil => rfl
  | cons c b ih =>
    obtain ⟨hc, hb⟩ := List.forall_mem_cons.1 h
    rw [Text.units_cons, unitsOf_of_isBodyChar hc, ih hb, List.length_cons, Nat.add_comm]

/-! ## Bodies and what follows them -/

/-- What may follow a marker in a mention. -/
structure IsBody (b : Text) : Prop where
  ne_nil : b ≠ []
  chars : ∀ c ∈ b, isBodyChar c = true
  last : isWordChar (b.getLast ne_nil) = true

/-- A text that adds nothing to a body before it. -/
def Released (t : Text) : Prop := ∀ c ∈ t.takeWhile isBodyChar, isWordChar c = false

instance (t : Text) : Decidable (Released t) := inferInstanceAs (Decidable (∀ c ∈ _, _))

/-- A body is a run of body characters with a word character behind it. -/
theorem isBody_concat_iff :
    IsBody (l ++ [c]) ↔ (∀ d ∈ l, isBodyChar d = true) ∧ isWordChar c = true := by
  constructor
  · intro h
    exact ⟨fun d hd => h.chars d (by simp [hd]), by simpa using h.last⟩
  · rintro ⟨hl, hc⟩
    refine ⟨by simp, fun d hd => ?_, by simpa using hc⟩
    rcases List.mem_append.1 hd with hd | hd
    · exact hl d hd
    · rw [List.mem_singleton.1 hd]
      exact isBodyChar_of_isWordChar hc

theorem IsBody.exists_concat (h : IsBody b) : ∃ l c, b = l ++ [c] ∧ isWordChar c = true :=
  ⟨b.dropLast, b.getLast h.ne_nil, (List.dropLast_concat_getLast h.ne_nil).symm, h.last⟩

/-- The body characters at the head of a body with a text behind it. -/
theorem IsBody.takeWhile_append (h : IsBody b) :
    (b ++ t).takeWhile isBodyChar = b ++ t.takeWhile isBodyChar :=
  List.takeWhile_append_of_pos h.chars

/-- Whether a text is released depends on the body characters at its head alone. -/
theorem Released.of_takeWhile_eq (h : t'.takeWhile isBodyChar = t.takeWhile isBodyChar)
    (ht : Released t) : Released t' := by
  rw [Released, h]
  exact ht

theorem released_nil : Released [] := nofun

/-- A text that starts with no body character is released. -/
theorem released_cons (h : isBodyChar c = false) : Released (c :: t) := by
  simp [Released, h]

/-- The characters that a body is followed by until the first other character are full stops and
hyphens. -/
theorem released_iff : Released t ↔ ∀ c ∈ t.takeWhile isBodyChar, c = '.' ∨ c = '-' :=
  forall₂_congr fun _ hc => isWordChar_eq_false_iff (List.mem_takeWhile_imp hc)

/-- A released text of body characters is one of full stops and hyphens. -/
theorem Released.forall_isBodyChar_iff (h : Released t) :
    (∀ c ∈ t, isBodyChar c = true) ↔ ∀ c ∈ t, c = '.' ∨ c = '-' := by
  constructor
  · intro hbody c hc
    refine (isWordChar_eq_false_iff (hbody c hc)).1 (h c ?_)
    rwa [List.takeWhile_eq_self_iff.2 hbody]
  · intro hall c hc
    rcases hall c hc with rfl | rfl <;> decide

/-- A text that starts with a body is not released. -/
theorem IsBody.not_released (h : IsBody b) : ¬ Released (b ++ t) := by
  obtain ⟨l, c, rfl, hc⟩ := h.exists_concat
  intro hr
  have hmem : c ∈ ((l ++ [c]) ++ t).takeWhile isBodyChar := by
    rw [h.takeWhile_append]
    simp
  rw [hr c hmem] at hc
  cases hc

/-- What remains of a released text without its end is released. -/
theorem Released.of_append_left (h : Released (l ++ r)) : Released l := by
  have hpre : l.takeWhile isBodyChar <+: (l ++ r).takeWhile isBodyChar := by
    rw [List.takeWhile_append]
    split
    · next hlen =>
      rw [(List.takeWhile_prefix isBodyChar).eq_of_length hlen]
      exact List.prefix_append _ _
    · exact List.prefix_refl _
  exact fun c hc => h c (hpre.subset hc)

/-- What remains of a released text without body characters at its head is released. -/
theorem Released.of_append_right (h : Released (l ++ r)) (hl : ∀ c ∈ l, isBodyChar c = true) :
    Released r := by
  intro c hc
  refine h c ?_
  rw [List.takeWhile_append_of_pos hl]
  exact List.mem_append_right _ hc

/-- A released text stays so with another one behind it, which the body characters at its head
reach only if there are no others in it. -/
theorem Released.append (hl : Released l)
    (hr : (∀ c ∈ l, isBodyChar c = true) → Released r) : Released (l ++ r) := by
  by_cases h : ∀ c ∈ l, isBodyChar c = true
  · intro c hc
    rw [List.takeWhile_append_of_pos h] at hc
    rcases List.mem_append.1 hc with hc | hc
    · exact hl c (by rwa [List.takeWhile_eq_self_iff.2 h])
    · exact hr h c hc
  · refine hl.of_takeWhile_eq ?_
    rw [List.takeWhile_append, if_neg]
    intro hlen
    exact h (List.takeWhile_eq_self_iff.1 ((List.takeWhile_prefix _).eq_of_length hlen))

/-- A character written into a released text adds to the body before it exactly if it is a word
character and only body characters stand before it. -/
theorem released_append_cons_iff (h : Released (l ++ r)) :
    Released (l ++ c :: r) ↔ ¬((∀ d ∈ l, isBodyChar d = true) ∧ isWordChar c = true) := by
  constructor
  · rintro hnew ⟨hl, hc⟩
    have hbody : IsBody (l ++ [c]) := isBody_concat_iff.2 ⟨hl, hc⟩
    refine hbody.not_released (t := r) ?_
    rwa [List.append_assoc]
  · intro hno
    refine h.of_append_left.append fun hl => ?_
    have hc : isWordChar c = false := Bool.eq_false_iff.2 fun hc => hno ⟨hl, hc⟩
    have hone : Released [c] := fun d hd => by
      rw [List.mem_singleton.1 ((List.takeWhile_prefix isBodyChar).subset hd)]
      exact hc
    exact hone.append (r := r) fun _ => h.of_append_right hl

/-! ## The longest body at the head of a text -/

/-- The longest body before a released text is all that stands before it. -/
theorem body_append (hb : IsBody b) (hr : Released r) : body (b ++ r) = b := by
  rw [body, hb.takeWhile_append, takeThrough_append hr]
  obtain ⟨l, c, rfl, hc⟩ := hb.exists_concat
  exact takeThrough_concat hc

/-- No body stands at the head of a text exactly if the text is released. -/
theorem body_eq_nil_iff : body t = [] ↔ Released t := takeThrough_eq_nil_iff

/-- Whatever stands at the head of a text is a body, if it is not empty. -/
theorem isBody_body (h : body t ≠ []) : IsBody (body t) := by
  obtain ⟨r, hr, -⟩ := exists_takeThrough_append isWordChar (t.takeWhile isBodyChar)
  obtain ⟨l, c, hc, hw⟩ := exists_takeThrough_eq_concat h
  rw [body] at h ⊢
  rw [hc] at hr ⊢
  refine isBody_concat_iff.2 ⟨fun d hd => ?_, hw⟩
  have hmem : d ∈ t.takeWhile isBodyChar := by
    rw [hr]
    simp [hd]
  exact List.mem_takeWhile_imp hmem

/-- A text is its longest body and a released rest. -/
theorem exists_body_append (t : Text) : ∃ r, t = body t ++ r ∧ Released r := by
  obtain ⟨r, hr, hw⟩ := exists_takeThrough_append isWordChar (t.takeWhile isBodyChar)
  have hrun : ∀ c ∈ r, isBodyChar c = true := fun c hc => by
    have hmem : c ∈ t.takeWhile isBodyChar := by
      rw [hr]
      exact List.mem_append_right _ hc
    exact List.mem_takeWhile_imp hmem
  have hstop : (t.dropWhile isBodyChar).takeWhile isBodyChar = [] := by
    cases h : t.dropWhile isBodyChar with
    | nil => rfl
    | cons c u =>
      have hc := List.head?_dropWhile_not isBodyChar t
      rw [h] at hc
      exact List.takeWhile_cons_of_neg (by simpa using hc)
  refine ⟨r ++ t.dropWhile isBodyChar, ?_, fun c hc => ?_⟩
  · rw [body, ← List.append_assoc, ← hr, List.takeWhile_append_dropWhile]
  · rw [List.takeWhile_append_of_pos hrun, hstop, List.append_nil] at hc
    exact hw c hc

/-- A body at the head of a text begins the longest one. -/
theorem IsBody.isPrefix_body (hb : IsBody b) (t : Text) : b <+: body (b ++ t) := by
  obtain ⟨r, ht, hr⟩ := exists_body_append (b ++ t)
  rcases List.append_eq_append_iff.1 ht with ⟨x, hx, -⟩ | ⟨x, hx, rfl⟩
  · exact ⟨x, hx.symm⟩
  · -- otherwise the end of the body would be left over, and it is a body by itself
    rcases List.eq_nil_or_concat x with rfl | ⟨x, c, rfl⟩
    · rw [List.append_nil] at hx
      exact ⟨[], (List.append_nil b).trans hx⟩
    · rw [List.concat_eq_append] at hx hr
      rw [hx, ← List.append_assoc] at hb
      obtain ⟨hchars, hc⟩ := isBody_concat_iff.1 hb
      have hend : IsBody (x ++ [c]) :=
        isBody_concat_iff.2 ⟨fun d hd => hchars d (List.mem_append_right _ hd), hc⟩
      exact absurd hr hend.not_released

/-! ## Visible text -/

theorem strip_append (l r : Text) : strip (l ++ r) = strip l ++ strip r := by
  simp only [strip, List.filter_append]

/-- Nothing is visible of a text exactly if all its characters are invisible. -/
theorem strip_eq_nil_iff : strip t = [] ↔ ∀ c ∈ t, isZeroWidth c = true := by
  simp [strip, List.filter_eq_nil_iff]

/-- A text is displayed as it stands exactly if all its characters are visible. -/
theorem strip_eq_self_iff : strip t = t ↔ ∀ c ∈ t, isZeroWidth c = false := by
  simp [strip, List.filter_eq_self]

/-- An invisible character belongs to no body. -/
theorem isBodyChar_of_isZeroWidth (h : isZeroWidth c = true) : isBodyChar c = false := by
  simp only [isZeroWidth, Bool.or_eq_true, decide_eq_true_eq] at h
  rcases h with rfl | rfl <;> decide

/-- A body character is visible. -/
theorem isZeroWidth_of_isBodyChar (h : isBodyChar c = true) : isZeroWidth c = false := by
  refine Bool.eq_false_iff.2 fun hz => ?_
  rw [isBodyChar_of_isZeroWidth hz] at h
  cases h

/-- A mention with a visible marker is displayed as it stands. -/
theorem IsBody.strip_cons (hb : IsBody b) (hc : isZeroWidth c = false) :
    strip (c :: b) = c :: b := by
  refine strip_eq_self_iff.2 (List.forall_mem_cons.2 ⟨hc, ?_⟩)
  exact fun d hd => isZeroWidth_of_isBodyChar (hb.chars d hd)

end Mentions
