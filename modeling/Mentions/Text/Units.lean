/-!
# Text addressed by code units

Text is a list of characters. A host addresses it by UTF-16 code units and stores it as UTF-8 bytes,
so an offset counts one of the two, and an offset that falls inside a character addresses nothing.

`Text.cutBy?` splits a text at an offset, in any measure of characters, and `Text.cut?` does so in
UTF-16 units. Every other operation on offsets is read off such a split: the conversions
`Text.byteIndex?` and `Text.unitIndex?`, the look-ups `Text.charAt?`, `Text.tail?` and
`Text.slice?`, and the edit `Text.splice?`. `Text.floor` rounds any offset down to one that
addresses a place.

Main statements: `Text.cut?_eq_some_iff` says that a cut finds the one split whose left part has
the wanted number of units, if there is one, and `Text.units_append` that units add up.
-/

namespace Mentions

/-- A text is the list of its characters. -/
abbrev Text := List Char

/-- The greatest offset that a host can pass. -/
def maxOffset : Nat := 0xFFFFFFFFFFFFFFFF

namespace Text

/-! ## Measures -/

/-- A character of the basic plane takes one UTF-16 unit, any other a pair of them. -/
def unitsOf (c : Char) : Nat := if c.toNat < 0x10000 then 1 else 2

/-- The weight of a text is the sum of the weights of its characters. -/
def weigh (w : Char → Nat) : Text → Nat
  | [] => 0
  | c :: t => w c + weigh w t

/-- The length of a text in UTF-16 code units. -/
def units (t : Text) : Nat := weigh unitsOf t

/-- The length of a text in bytes of UTF-8. -/
def bytes (t : Text) : Nat := weigh Char.utf8Size t

@[simp] theorem weigh_nil (w : Char → Nat) : weigh w [] = 0 := rfl

@[simp] theorem weigh_cons (w : Char → Nat) (c : Char) (t : Text) :
    weigh w (c :: t) = w c + weigh w t := rfl

theorem weigh_append (w : Char → Nat) (s t : Text) : weigh w (s ++ t) = weigh w s + weigh w t := by
  induction s with
  | nil => simp
  | cons c s ih => simp [ih, Nat.add_assoc]

@[simp] theorem units_nil : units [] = 0 := rfl

@[simp] theorem units_cons (c : Char) (t : Text) : units (c :: t) = unitsOf c + units t := rfl

@[simp] theorem units_append (s t : Text) : units (s ++ t) = units s + units t :=
  weigh_append unitsOf s t

theorem unitsOf_pos (c : Char) : 0 < unitsOf c := by
  unfold unitsOf
  split <;> decide

theorem unitsOf_le_two (c : Char) : unitsOf c ≤ 2 := by
  unfold unitsOf
  split <;> decide

/-! ## Cutting at an offset -/

/-- Splits a text after exactly the given weight: `none` past its end and inside a character. -/
def cutBy? (w : Char → Nat) : Text → Nat → Option (Text × Text)
  | t, 0 => some ([], t)
  | [], _ + 1 => none
  | c :: t, n + 1 =>
    if w c ≤ n + 1 then
      (cutBy? w t (n + 1 - w c)).map fun (l, r) => (c :: l, r)
    else none

/-- Splits a text at an offset in UTF-16 units. -/
def cut? (t : Text) (u : Nat) : Option (Text × Text) := cutBy? unitsOf t u

/-- A cut finds the one split whose left part weighs as much as the offset says, where every
character weighs something. -/
theorem cutBy?_eq_some_iff {w : Char → Nat} (hw : ∀ c, 0 < w c) {t l r : Text} {n : Nat} :
    cutBy? w t n = some (l, r) ↔ t = l ++ r ∧ weigh w l = n := by
  induction t generalizing n l with
  | nil =>
    cases n with
    | zero =>
      simp only [cutBy?, Option.some.injEq, Prod.mk.injEq]
      constructor
      · rintro ⟨rfl, rfl⟩; simp
      · rintro ⟨h, -⟩
        simpa [eq_comm] using h
    | succ n =>
      simp only [cutBy?, reduceCtorEq, false_iff, not_and]
      intro h
      have : l = [] := by
        cases l with
        | nil => rfl
        | cons => simp at h
      simp [this]
  | cons c t ih =>
    cases n with
    | zero =>
      simp only [cutBy?, Option.some.injEq, Prod.mk.injEq]
      constructor
      · rintro ⟨rfl, rfl⟩; simp
      · rintro ⟨h, h0⟩
        cases l with
        | nil => simpa using h
        | cons d l =>
          have := hw d
          simp at h0
          omega
    | succ n =>
      simp only [cutBy?]
      constructor
      · intro h
        split at h
        · obtain ⟨⟨l', r'⟩, hc, he⟩ := Option.map_eq_some_iff.1 h
          simp only [Prod.mk.injEq] at he
          obtain ⟨rfl, rfl⟩ := he
          obtain ⟨rfl, hn⟩ := ih.1 hc
          refine ⟨rfl, ?_⟩
          simp only [weigh_cons]
          omega
        · simp at h
      · rintro ⟨h, hn⟩
        cases l with
        | nil => simp at hn
        | cons d l =>
          simp only [List.cons_append, List.cons.injEq] at h
          obtain ⟨rfl, h⟩ := h
          simp only [weigh_cons] at hn
          rw [if_pos (by omega), ih.2 ⟨h, by omega⟩]
          rfl

/-- A cut finds the one split whose left part has the wanted number of units. -/
theorem cut?_eq_some_iff {t l r : Text} {u : Nat} :
    t.cut? u = some (l, r) ↔ t = l ++ r ∧ units l = u :=
  cutBy?_eq_some_iff unitsOf_pos

/-! ## Conversions -/

/-- The byte index of an offset in UTF-16 units, if it addresses a place. -/
def byteIndex? (t : Text) (u : Nat) : Option Nat :=
  (t.cut? u).map fun (l, _) => bytes l

/-- The offset in UTF-16 units of a byte index, if it stands between two characters. -/
def unitIndex? (t : Text) (b : Nat) : Option Nat :=
  (cutBy? Char.utf8Size t b).map fun (l, _) => units l

/-- The greatest offset not above the given one that addresses a place. -/
def floor : Text → Nat → Nat
  | [], _ => 0
  | c :: t, u => if unitsOf c ≤ u then unitsOf c + floor t (u - unitsOf c) else 0

/-! ## Look-ups -/

/-- The character that starts at an offset. -/
def charAt? (t : Text) (u : Nat) : Option Char := do
  let (_, r) ← t.cut? u
  r.head?

/-- The text from an offset to the end. -/
def tail? (t : Text) (u : Nat) : Option Text :=
  (t.cut? u).map fun (_, r) => r

/-- The text between two offsets. -/
def slice? (t : Text) (start stop : Nat) : Option Text := do
  let (_, r) ← t.cut? start
  if start ≤ stop then
    let (s, _) ← cut? r (stop - start)
    some s
  else none

/-! ## Edits -/

/-- Replaces the text between two offsets: `none` if they are in the wrong order, or if one of them
addresses no place. -/
def splice? (t : Text) (start stop : Nat) (new : Text) : Option Text :=
  if start ≤ stop then do
    let (l, _) ← t.cut? start
    let (_, r) ← t.cut? stop
    some (l ++ new ++ r)
  else none

end Text

end Mentions
