import Mentions.Proofs.Text.Place

/-!
# Offsets that are checked

The definitions of the library cut texts into lists of characters and count with natural numbers, so
that nothing in them can go wrong. A text in memory is a run of bytes, though, and an offset is a
machine word. To cut such a text, an offset in UTF-16 units is turned into a byte index first, by
counting; the cut goes wrong inside a character and beyond the end, and a count goes wrong when it
leaves the machine word.

Here the operations on offsets are written out in this way, so that whatever could go wrong is a
`Fault`. Each of them returns, and with what the library says, for every text whose own length fits
into a machine word (`Fits`) and for every offset: `byteIndex_eq` and the lemmas that follow from
it.
-/

namespace Mentions

namespace Text

variable {l r t : Text}

/-! ## Lengths in bytes -/

@[simp] theorem bytes_nil : bytes [] = 0 := rfl

@[simp] theorem bytes_cons (c : Char) (t : Text) : bytes (c :: t) = c.utf8Size + bytes t := rfl

@[simp] theorem bytes_append (s t : Text) : bytes (s ++ t) = bytes s + bytes t :=
  weigh_append Char.utf8Size s t

/-- A character has no more units than bytes. -/
theorem unitsOf_le_utf8Size (c : Char) : unitsOf c ≤ c.utf8Size := by
  have hpos := c.utf8Size_pos
  unfold unitsOf
  split
  · exact hpos
  · next h =>
    have hone : ¬c.val ≤ 127 := fun hle => h (Nat.lt_of_le_of_lt (UInt32.le_iff_toNat_le.1 hle)
      (by decide))
    have hne : c.utf8Size ≠ 1 := fun h1 => hone (Char.utf8Size_eq_one_iff.1 h1)
    omega

theorem units_le_bytes (t : Text) : units t ≤ bytes t := by
  induction t with
  | nil => exact Nat.le_refl 0
  | cons c t ih => exact Nat.add_le_add (unitsOf_le_utf8Size c) ih

theorem length_le_bytes (t : Text) : t.length ≤ bytes t := by
  induction t with
  | nil => exact Nat.le_refl 0
  | cons c t ih =>
    have := c.utf8Size_pos
    rw [List.length_cons, bytes_cons]
    omega

/-- The byte index of the place behind a left part. -/
@[simp] theorem byteIndex?_append (l r : Text) :
    byteIndex? (l ++ r) (units l) = some (bytes l) := by
  simp [byteIndex?]

/-- A text can be cut at an offset, or the offset addresses no place. -/
theorem exists_append_or_cut?_eq_none (t : Text) (u : Nat) :
    (∃ l r, t = l ++ r ∧ units l = u) ∨ t.cut? u = none := by
  cases h : t.cut? u with
  | none => exact .inr rfl
  | some p => exact .inl ⟨p.1, p.2, cut?_eq_some_iff.1 h⟩

end Text

/-! ## Faults -/

/-- What can go wrong. -/
inductive Fault
  /-- A sum does not fit into a machine word. -/
  | overflow
  /-- A difference is negative. -/
  | underflow
  /-- A text is cut inside a character or beyond its end. -/
  | cut
  /-- A byte is read beyond the end. -/
  | index
  /-- An offset that was known to address a place addresses none. -/
  | unaddressable
  /-- A loop takes more turns than its text has characters. -/
  | endless
  deriving DecidableEq, Repr

/-- A result, or the fault that there is none for. -/
abbrev Checked : Type → Type := Except Fault

namespace Checked

open Text

variable {a b n u : Nat} {l r t new : Text}

/-- A sum of offsets. -/
def add (a b : Nat) : Checked Nat := if a + b ≤ maxOffset then pure (a + b) else throw .overflow

/-- A difference of offsets. -/
def sub (a b : Nat) : Checked Nat := if b ≤ a then pure (a - b) else throw .underflow

/-- A place that is known to be there. -/
def require {β : Type} : Option β → Checked β
  | some x => pure x
  | none => throw .unaddressable

theorem add_eq (h : a + b ≤ maxOffset) : add a b = pure (a + b) := if_pos h

theorem sub_eq (h : b ≤ a) : sub a b = pure (a - b) := if_pos h

@[simp] theorem require_some {β : Type} (x : β) : require (some x) = pure x := rfl

/-! ## Texts that fit -/

/-- The length of a text, in bytes, is a machine word. -/
def Fits (t : Text) : Prop := bytes t ≤ maxOffset

instance (t : Text) : Decidable (Fits t) := inferInstanceAs (Decidable (_ ≤ _))

theorem Fits.left (h : Fits (l ++ r)) : Fits l :=
  Nat.le_trans (Nat.le_trans (Nat.le_add_right _ _) (Nat.le_of_eq (bytes_append l r).symm)) h

theorem Fits.right (h : Fits (l ++ r)) : Fits r :=
  Nat.le_trans (Nat.le_trans (Nat.le_add_left _ _) (Nat.le_of_eq (bytes_append l r).symm)) h

theorem Fits.units_le (h : Fits t) : units t ≤ maxOffset := Nat.le_trans (units_le_bytes t) h

/-- The lengths of two parts of a text add up. -/
theorem add_bytes (h : Fits (l ++ r)) : add (bytes l) (bytes r) = pure (bytes (l ++ r)) := by
  rw [bytes_append]
  refine add_eq ?_
  rw [← bytes_append]
  exact h

theorem add_units (h : Fits (l ++ r)) : add (units l) (units r) = pure (units (l ++ r)) := by
  rw [units_append]
  refine add_eq ?_
  rw [← units_append]
  exact h.units_le

/-! ## Cuts at byte indices -/

/-- The text before a byte index. -/
def takeBytes (t : Text) (b : Nat) : Checked Text :=
  match cutBy? Char.utf8Size t b with
  | some (l, _) => pure l
  | none => throw .cut

/-- The text from a byte index on. -/
def dropBytes (t : Text) (b : Nat) : Checked Text :=
  match cutBy? Char.utf8Size t b with
  | some (_, r) => pure r
  | none => throw .cut

/-- The text between two byte indices, the first of which is not behind the second. -/
def sliceBytes (t : Text) (a b : Nat) : Checked Text := do
  let l ← takeBytes t b
  dropBytes l a

theorem cutBy?_utf8Size_append (l r : Text) :
    cutBy? Char.utf8Size (l ++ r) (bytes l) = some (l, r) :=
  (cutBy?_eq_some_iff Char.utf8Size_pos).2 ⟨rfl, rfl⟩

@[simp] theorem takeBytes_append (l r : Text) : takeBytes (l ++ r) (bytes l) = pure l := by
  rw [takeBytes, cutBy?_utf8Size_append]

@[simp] theorem dropBytes_append (l r : Text) : dropBytes (l ++ r) (bytes l) = pure r := by
  rw [dropBytes, cutBy?_utf8Size_append]

@[simp] theorem sliceBytes_append (l x r : Text) :
    sliceBytes (l ++ (x ++ r)) (bytes l) (bytes l + bytes x) = pure x := by
  rw [sliceBytes, ← bytes_append, ← List.append_assoc, takeBytes_append, pure_bind,
    dropBytes_append]

/-! ## Conversions -/

/-- The length of a text in units, added up character by character. -/
def countUnits (t : Text) : Checked Nat := t.foldlM (fun n c => add n (unitsOf c)) 0

/-- The loop that looks for an offset `u`: it has read `n` units, and the text `t` is left, which
starts at byte index `b`. -/
def byteIndexFrom (u : Nat) : (b n : Nat) → Text → Checked (Option Nat)
  | b, n, [] => pure (if n = u then some b else none)
  | b, n, c :: t =>
    if n = u then pure (some b)
    else do
      let n ← add n (unitsOf c)
      if u < n then pure none else byteIndexFrom u (b + c.utf8Size) n t

/-- The byte index of an offset, if it addresses a place. -/
def byteIndex (t : Text) (u : Nat) : Checked (Option Nat) := byteIndexFrom u 0 0 t

/-- The offset of a byte index, which has to stand between two characters. -/
def unitIndex (t : Text) (b : Nat) : Checked Nat := do
  let l ← takeBytes t b
  countUnits l

theorem foldlM_add_unitsOf (h : n + units t ≤ maxOffset) :
    t.foldlM (fun n c => add n (unitsOf c)) n = pure (n + units t) := by
  induction t generalizing n with
  | nil => rfl
  | cons c t ih =>
    rw [units_cons] at h ⊢
    rw [List.foldlM_cons, add_eq (by omega), pure_bind, ih (by omega), Nat.add_assoc]

theorem countUnits_eq (h : units t ≤ maxOffset) : countUnits t = pure (units t) := by
  have hcount := foldlM_add_unitsOf (n := 0) (t := t) (by rwa [Nat.zero_add])
  rwa [Nat.zero_add] at hcount

/-- The loop never counts beyond the end of its text, whatever it looks for. -/
theorem byteIndexFrom_eq (h : n + units t ≤ maxOffset) :
    byteIndexFrom (n + u) b n t = pure ((t.cut? u).map fun p => b + bytes p.1) := by
  induction t generalizing b n u with
  | nil =>
    cases u with
    | zero => simp [byteIndexFrom, cut?, cutBy?]
    | succ u => simp [byteIndexFrom, cut?, cutBy?]
  | cons c t ih =>
    cases u with
    | zero => simp [byteIndexFrom, cut?, cutBy?]
    | succ u =>
      rw [units_cons] at h
      rw [byteIndexFrom, if_neg (by omega), add_eq (by omega), pure_bind, cut?, cutBy?]
      by_cases hc : unitsOf c ≤ u + 1
      · have hu : n + (u + 1) = n + unitsOf c + (u + 1 - unitsOf c) := by omega
        rw [if_neg (by omega), if_pos hc, hu, ih (by omega), Option.map_map, cut?]
        refine congrArg (fun f => pure (Option.map f _)) (funext fun p => ?_)
        exact Nat.add_assoc _ _ _
      · rw [if_pos (by omega), if_neg hc]
        rfl

/-- Looking a byte index up goes wrong for no offset. -/
theorem byteIndex_eq (h : Fits t) (u : Nat) : byteIndex t u = pure (t.byteIndex? u) := by
  have hloop := byteIndexFrom_eq (b := 0) (n := 0) (t := t) (u := u) (by
    rw [Nat.zero_add]
    exact h.units_le)
  rw [Nat.zero_add] at hloop
  rw [byteIndex, hloop]
  simp only [Nat.zero_add, byteIndex?]

/-- The offset of a place is that of its byte index. -/
theorem unitIndex_append (h : Fits (l ++ r)) : unitIndex (l ++ r) (bytes l) = pure (units l) := by
  rw [unitIndex, takeBytes_append, pure_bind, countUnits_eq h.left.units_le]

/-! ## Look-ups -/

/-- The character that starts at an offset. -/
def charAt (t : Text) (u : Nat) : Checked (Option Char) := do
  match ← byteIndex t u with
  | some b => return (← dropBytes t b).head?
  | none => return none

/-- The text from an offset to the end. -/
def tail (t : Text) (u : Nat) : Checked (Option Text) := do
  match ← byteIndex t u with
  | some b => return some (← dropBytes t b)
  | none => return none

theorem charAt_eq (h : Fits t) (u : Nat) : charAt t u = pure (t.charAt? u) := by
  rw [charAt, byteIndex_eq h, pure_bind]
  rcases exists_append_or_cut?_eq_none t u with ⟨l, r, rfl, rfl⟩ | hnone
  · simp only [byteIndex?_append, dropBytes_append, pure_bind, charAt?_append]
  · simp only [byteIndex?, charAt?, hnone, Option.map_none, Option.bind_eq_bind, Option.bind_none]

theorem tail_eq (h : Fits t) (u : Nat) : tail t u = pure (t.tail? u) := by
  rw [tail, byteIndex_eq h, pure_bind]
  rcases exists_append_or_cut?_eq_none t u with ⟨l, r, rfl, rfl⟩ | hnone
  · simp only [byteIndex?_append, dropBytes_append, pure_bind, tail?_append]
  · simp only [byteIndex?, tail?, hnone, Option.map_none]

/-! ## Edits -/

/-- Replaces the text between two offsets, in memory of just the length that the new text needs. -/
def splice (t : Text) (start stop : Nat) (new : Text) : Checked (Option Text) :=
  if stop < start then pure none
  else do
    let some first ← byteIndex t start | return none
    let some last ← byteIndex t stop | return none
    let _capacity ← add (← sub (bytes t) (← sub last first)) (bytes new)
    let before ← takeBytes t first
    let after ← dropBytes t last
    return some (before ++ new ++ after)

/-- A replacement between two places goes wrong only if the new text has no room. -/
theorem splice_append {x : Text} (h : Fits (l ++ (x ++ r))) (hnew : Fits (l ++ new ++ r)) :
    splice (l ++ (x ++ r)) (units l) (units l + units x) new = pure (some (l ++ new ++ r)) := by
  have hstart : byteIndex (l ++ (x ++ r)) (units l) = pure (some (bytes l)) := by
    rw [byteIndex_eq h, byteIndex?_append]
  have hstop : byteIndex (l ++ (x ++ r)) (units l + units x) = pure (some (bytes l + bytes x)) := by
    rw [byteIndex_eq h, ← units_append, ← bytes_append, ← List.append_assoc, byteIndex?_append]
  have hbefore := takeBytes_append l (x ++ r)
  have hafter := dropBytes_append (l ++ x) r
  rw [bytes_append, List.append_assoc] at hafter
  have hroom : bytes (l ++ (x ++ r)) - bytes x + bytes new ≤ maxOffset := by
    unfold Fits at hnew
    simp only [bytes_append] at hnew ⊢
    omega
  have hpart : bytes x ≤ bytes (l ++ (x ++ r)) := by
    simp only [bytes_append]
    omega
  rw [splice, if_neg (by omega), hstart, pure_bind]
  simp only [hstop, pure_bind]
  rw [sub_eq (Nat.le_add_right _ _), Nat.add_sub_cancel_left, pure_bind, sub_eq hpart, pure_bind,
    add_eq hroom, pure_bind, hbefore, pure_bind, hafter, pure_bind]

theorem splice_insert (h : Fits (l ++ r)) (hnew : Fits (l ++ new ++ r)) :
    splice (l ++ r) (units l) (units l) new = pure (some (l ++ new ++ r)) :=
  splice_append (x := []) h hnew

end Checked

end Mentions
