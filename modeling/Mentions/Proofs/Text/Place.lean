import Mentions.Text.Units

/-!
# Places of a text

An offset *addresses a place* of a text if the text can be cut there (`Text.Addressable`), which is
to say that it is the length of some left part (`Text.addressable_iff`). Everything else follows
from how two cuts of one text lie to each other: of two left parts the one with fewer units begins
the other (`Text.append_of_le`), so there is no place between the two ends of a character
(`Text.Addressable.le_of_lt`). The look-ups and edits of `Mentions.Text.Units` are read off at a
text that is given as its parts; `Text.splice?_eq_some_iff` says when a replacement is made and what
it gives. What an offset is rounded down to is the last place that is not behind it
(`Text.floor_le`, `Text.Addressable.le_floor`).
-/

namespace Mentions.Text

variable {t l r l' r' : Text} {u v : Nat} {c : Char}

/-! ## Lengths -/

/-- Only the empty text has no units. -/
theorem units_eq_zero : units t = 0 ↔ t = [] := by
  cases t with
  | nil => simp
  | cons c t =>
    have := unitsOf_pos c
    simp only [units_cons, reduceCtorEq, iff_false]
    omega

/-- A text that is not empty has units. -/
theorem units_pos (h : t ≠ []) : 0 < units t :=
  Nat.pos_of_ne_zero fun h0 => h (units_eq_zero.1 h0)

/-! ## Two cuts of one text -/

/-- Of two left parts of a text, the one with no more units begins the other. -/
theorem append_of_le (h : l ++ r = l' ++ r') (hu : units l ≤ units l') :
    ∃ x, l' = l ++ x ∧ r = x ++ r' := by
  rcases List.append_eq_append_iff.1 h with ⟨x, hl, hr⟩ | ⟨x, hl, hr⟩
  · exact ⟨x, hl, hr⟩
  · have hx : x = [] := by
      subst hl
      rw [units_append] at hu
      exact units_eq_zero.1 (by omega)
    subst hx
    exact ⟨[], by simpa using hl.symm, by simpa using hr.symm⟩

/-- Two left parts of a text with as many units are the same, and so are the rests. -/
theorem append_inj_of_units_eq (h : l ++ r = l' ++ r') (hu : units l = units l') :
    l = l' ∧ r = r' := by
  obtain ⟨x, rfl, rfl⟩ := append_of_le h (Nat.le_of_eq hu)
  have hx : x = [] := by
    rw [units_append] at hu
    exact units_eq_zero.1 (by omega)
  subst hx
  simp

/-- Of two left parts of a text, the one with fewer units stops at a character of the other. -/
theorem append_of_lt (h : l ++ r = l' ++ r') (hu : units l < units l') :
    ∃ c x, l' = l ++ c :: x ∧ r = c :: x ++ r' := by
  obtain ⟨x, rfl, rfl⟩ := append_of_le h (Nat.le_of_lt hu)
  cases x with
  | nil => simp at hu
  | cons c x => exact ⟨c, x, rfl, rfl⟩

/-! ## Addressable offsets -/

/-- An offset addresses a place of a text if the text can be cut there. -/
def Addressable (t : Text) (u : Nat) : Prop := (t.cut? u).isSome = true

instance (t : Text) (u : Nat) : Decidable (Addressable t u) :=
  inferInstanceAs (Decidable (_ = true))

/-- A text can be cut after each of its left parts. -/
@[simp] theorem cut?_append (l r : Text) : cut? (l ++ r) (units l) = some (l, r) :=
  cut?_eq_some_iff.2 ⟨rfl, rfl⟩

/-- Behind a left part a text is cut where the rest is. -/
theorem cut?_append_add (l r : Text) (u : Nat) :
    cut? (l ++ r) (units l + u) = (cut? r u).map fun (x, y) => (l ++ x, y) := by
  refine Option.ext fun (x, y) => ?_
  rw [cut?_eq_some_iff, Option.map_eq_some_iff]
  constructor
  · rintro ⟨h, hu⟩
    obtain ⟨z, rfl, hz⟩ := append_of_le h (by omega)
    rw [units_append] at hu
    exact ⟨(z, y), cut?_eq_some_iff.2 ⟨hz, by omega⟩, rfl⟩
  · rintro ⟨⟨z, y⟩, hz, he⟩
    obtain ⟨rfl, rfl⟩ := Prod.mk.inj he
    obtain ⟨rfl, rfl⟩ := cut?_eq_some_iff.1 hz
    exact ⟨(List.append_assoc _ _ _).symm, units_append _ _⟩

/-- Up to the end of a left part a text is cut where this part is. -/
theorem cut?_append_of_le (h : u ≤ units l) (r : Text) :
    cut? (l ++ r) u = (cut? l u).map fun (x, y) => (x, y ++ r) := by
  refine Option.ext fun (x, y) => ?_
  rw [cut?_eq_some_iff, Option.map_eq_some_iff]
  constructor
  · rintro ⟨he, hx⟩
    obtain ⟨z, rfl, rfl⟩ := append_of_le he.symm (by omega)
    exact ⟨(x, z), cut?_eq_some_iff.2 ⟨rfl, hx⟩, rfl⟩
  · rintro ⟨⟨x, z⟩, hz, he⟩
    obtain ⟨rfl, rfl⟩ := Prod.mk.inj he
    obtain ⟨rfl, rfl⟩ := cut?_eq_some_iff.1 hz
    exact ⟨List.append_assoc _ _ _, rfl⟩

/-- The addressable offsets are the lengths of the left parts. -/
theorem addressable_iff : Addressable t u ↔ ∃ l r, t = l ++ r ∧ units l = u := by
  rw [Addressable, Option.isSome_iff_exists]
  constructor
  · rintro ⟨⟨l, r⟩, h⟩
    exact ⟨l, r, cut?_eq_some_iff.1 h⟩
  · rintro ⟨l, r, h⟩
    exact ⟨(l, r), cut?_eq_some_iff.2 h⟩

theorem addressable_append (l r : Text) : Addressable (l ++ r) (units l) :=
  addressable_iff.2 ⟨l, r, rfl, rfl⟩

@[simp] theorem addressable_zero (t : Text) : Addressable t 0 := addressable_append [] t

@[simp] theorem addressable_units (t : Text) : Addressable t (units t) := by
  simpa using addressable_append t []

theorem Addressable.append_left (h : Addressable r u) (l : Text) :
    Addressable (l ++ r) (units l + u) := by
  obtain ⟨x, y, rfl, rfl⟩ := addressable_iff.1 h
  exact addressable_iff.2 ⟨l ++ x, y, (List.append_assoc _ _ _).symm, units_append _ _⟩

/-- Two places in order cut a text into three parts. -/
theorem exists_append_append (hu : Addressable t u) (hv : Addressable t v) (huv : u ≤ v) :
    ∃ l x r, t = l ++ (x ++ r) ∧ units l = u ∧ units l + units x = v := by
  obtain ⟨l, r, rfl, rfl⟩ := addressable_iff.1 hu
  obtain ⟨l', r', he, rfl⟩ := addressable_iff.1 hv
  obtain ⟨x, rfl, rfl⟩ := append_of_le he huv
  exact ⟨l, x, r', rfl, rfl, (units_append l x).symm⟩

/-- No place lies behind the end of the text. -/
theorem Addressable.le (h : Addressable t u) : u ≤ units t := by
  obtain ⟨l, r, rfl, rfl⟩ := addressable_iff.1 h
  simp

/-- There is no place between the two ends of a character, seen from the left. -/
theorem Addressable.le_of_lt (h : Addressable (l ++ c :: r) u) (hu : units l < u) :
    units l + unitsOf c ≤ u := by
  obtain ⟨l', r', he, rfl⟩ := addressable_iff.1 h
  obtain ⟨d, x, rfl, hr⟩ := append_of_lt he hu
  obtain ⟨rfl, -⟩ := List.cons.inj hr
  simp only [units_append, units_cons]
  omega

/-- There is no place between the two ends of a character, seen from the right. -/
theorem Addressable.le_of_lt_add (h : Addressable (l ++ c :: r) u) (hu : u < units l + unitsOf c) :
    u ≤ units l := by
  rcases Nat.lt_or_ge (units l) u with hlt | hge
  · have := h.le_of_lt hlt
    omega
  · exact hge

/-! ## Rounding down -/

@[simp] theorem floor_zero (t : Text) : floor t 0 = 0 := by
  cases t with
  | nil => rfl
  | cons c t => exact if_neg (Nat.not_le.2 (unitsOf_pos c))

/-- An offset behind a left part is rounded down within the rest. -/
theorem floor_append (l r : Text) (u : Nat) :
    floor (l ++ r) (units l + u) = units l + floor r u := by
  induction l with
  | nil => simp
  | cons c l ih =>
    rw [List.cons_append, floor, units_cons, if_pos (by omega), Nat.add_assoc,
      Nat.add_sub_cancel_left, ih, Nat.add_assoc]

/-- An offset is rounded down to a place. -/
theorem addressable_floor (t : Text) (u : Nat) : Addressable t (floor t u) := by
  induction t generalizing u with
  | nil => exact addressable_zero []
  | cons c t ih =>
    rw [floor]
    split
    · obtain ⟨l, r, rfl, hl⟩ := addressable_iff.1 (ih (u - unitsOf c))
      exact addressable_iff.2 ⟨c :: l, r, rfl, congrArg (unitsOf c + ·) hl⟩
    · exact addressable_zero _

/-- A place is left where it is. -/
theorem Addressable.floor_eq (h : Addressable t u) : floor t u = u := by
  obtain ⟨l, r, rfl, rfl⟩ := addressable_iff.1 h
  have hfloor := floor_append l r 0
  rwa [floor_zero, Nat.add_zero] at hfloor

/-- No offset is rounded up. -/
theorem floor_le (t : Text) (u : Nat) : floor t u ≤ u := by
  induction t generalizing u with
  | nil => exact Nat.zero_le u
  | cons c t ih =>
    rw [floor]
    split
    · have := ih (u - unitsOf c)
      omega
    · exact Nat.zero_le u

/-- An offset is rounded down to the last place that is not behind it. -/
theorem Addressable.le_floor (h : Addressable t v) (hv : v ≤ u) : v ≤ floor t u := by
  obtain ⟨l, r, rfl, rfl⟩ := addressable_iff.1 h
  have hfloor := floor_append l r (u - units l)
  rw [Nat.add_sub_cancel' hv] at hfloor
  rw [hfloor]
  exact Nat.le_add_right _ _

/-- An offset beyond the end is rounded down to the end. -/
theorem floor_min (t : Text) (u : Nat) : floor t (min u (units t)) = floor t u := by
  have hle := floor_le t (min u (units t))
  have hend := (addressable_floor t u).le
  refine Nat.le_antisymm ?_ ?_
  · exact (addressable_floor t _).le_floor (Nat.le_trans hle (Nat.min_le_left u _))
  · exact (addressable_floor t u).le_floor (Nat.le_min.2 ⟨floor_le t u, hend⟩)

/-- Within the text, an offset is rounded down by one unit at most. -/
theorem min_le_floor_add_one (t : Text) (u : Nat) : min u (units t) ≤ floor t u + 1 := by
  induction t generalizing u with
  | nil => simp
  | cons c t ih =>
    have hc := unitsOf_le_two c
    rw [floor, units_cons]
    split
    · have := ih (u - unitsOf c)
      omega
    · omega

/-! ## Look-ups -/

@[simp] theorem tail?_append (l r : Text) : tail? (l ++ r) (units l) = some r := by
  simp [tail?]

@[simp] theorem charAt?_append (l r : Text) : charAt? (l ++ r) (units l) = r.head? := by
  simp [charAt?]

/-- The character at an offset behind a left part is that of the rest. -/
theorem charAt?_append_add (l r : Text) (u : Nat) :
    charAt? (l ++ r) (units l + u) = charAt? r u := by
  rw [charAt?, charAt?, cut?_append_add]
  cases cut? r u <;> rfl

/-- The text from an offset behind a left part is that of the rest. -/
theorem tail?_append_add (l r : Text) (u : Nat) :
    tail? (l ++ r) (units l + u) = tail? r u := by
  rw [tail?, tail?, cut?_append_add]
  cases cut? r u <;> rfl

/-- The text between the ends of a part is that part. -/
theorem slice?_append (l x r : Text) :
    slice? (l ++ (x ++ r)) (units l) (units l + units x) = some x := by
  simp [slice?]

/-- The text between two places in order is found, and none between any other two offsets. -/
theorem slice?_eq_some_iff {x : Text} :
    slice? t u v = some x ↔ ∃ l r, t = l ++ (x ++ r) ∧ units l = u ∧ units l + units x = v := by
  constructor
  · intro h
    simp only [slice?, Option.bind_eq_bind, Option.bind_eq_some_iff, Prod.exists] at h
    obtain ⟨l, r', hl, h⟩ := h
    obtain ⟨rfl, rfl⟩ := cut?_eq_some_iff.1 hl
    split at h
    · next huv =>
      simp only [Option.bind_eq_some_iff, Prod.exists, Option.some.injEq] at h
      obtain ⟨x, r, hx, rfl⟩ := h
      obtain ⟨rfl, hlen⟩ := cut?_eq_some_iff.1 hx
      exact ⟨l, r, rfl, rfl, by omega⟩
    · cases h
  · rintro ⟨l, r, rfl, rfl, rfl⟩
    exact slice?_append l x r

/-! ## Replacements -/

/-- A part of a text is replaced by taking it out and putting the new text in its place. -/
@[simp] theorem splice?_append (l x r new : Text) :
    splice? (l ++ (x ++ r)) (units l) (units l + units x) new = some (l ++ new ++ r) := by
  have h : cut? (l ++ (x ++ r)) (units l + units x) = some (l ++ x, r) := by
    rw [← List.append_assoc, ← units_append]
    exact cut?_append _ _
  simp [splice?, h]

/-- A text is inserted at a place. -/
@[simp] theorem splice?_insert (l r new : Text) :
    splice? (l ++ r) (units l) (units l) new = some (l ++ new ++ r) :=
  splice?_append l [] r new

/-- A replacement behind a left part is made in the rest. -/
theorem splice?_append_add (l r new : Text) (u v : Nat) :
    splice? (l ++ r) (units l + u) (units l + v) new = (splice? r u v new).map (l ++ ·) := by
  simp only [splice?, cut?_append_add, Nat.add_le_add_iff_left]
  split
  · cases cut? r u <;> cases cut? r v <;> simp
  · rfl

/-- A replacement is made between two places in order, and changes nothing outside them. -/
theorem splice?_eq_some_iff {t' new : Text} :
    splice? t u v new = some t' ↔
      ∃ l x r, t = l ++ (x ++ r) ∧ units l = u ∧ units l + units x = v ∧ t' = l ++ new ++ r := by
  constructor
  · intro h
    simp only [splice?] at h
    split at h
    · next huv =>
      simp only [Option.bind_eq_bind, Option.bind_eq_some_iff, Prod.exists, Option.some.injEq] at h
      obtain ⟨l, r', hl, l', r, hr, rfl⟩ := h
      obtain ⟨rfl, rfl⟩ := cut?_eq_some_iff.1 hl
      obtain ⟨he, rfl⟩ := cut?_eq_some_iff.1 hr
      obtain ⟨x, rfl, rfl⟩ := append_of_le he huv
      exact ⟨l, x, r, rfl, rfl, by simp, rfl⟩
    · cases h
  · rintro ⟨l, x, r, rfl, rfl, rfl, rfl⟩
    exact splice?_append l x r new

end Mentions.Text
