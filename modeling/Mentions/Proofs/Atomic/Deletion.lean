import Mentions.Proofs.Host

/-!
# Deletions take mentions whole

`Deletes` lists what may become of a deletion: a range around the cursor is removed, nothing is
removed, or the host removes its own range. In each case the two ends of the range are legal
positions, and a range with legal ends holds every mention whole or not at all
(`Span.intact_of_legal`). `intercept_deletes` is the case analysis over what the library decides,
and `deletion_takes_mentions_whole` reads the statement about the removed range off it.
-/

namespace Mentions

open Text

variable {m : Char} {buffer new : Text} {cursor a b : Nat} {s : Span} {intent : Intent}
  {config : Config} {words : Word.Segmenter}

/-- Either all units of the span lie in the range from `a` to `b`, or none does. -/
def Span.Intact (s : Span) (a b : Nat) : Prop :=
  (∀ u, s.start ≤ u → u < s.stop → a ≤ u ∧ u < b) ∨
    ∀ u, s.start ≤ u → u < s.stop → ¬(a ≤ u ∧ u < b)

/-- A range whose ends are in no mention leaves every mention intact. -/
theorem Span.intact_of_legal (ha : Legal m buffer a) (hb : Legal m buffer b)
    (hs : s ∈ scan m buffer) : s.Intact a b := by
  have h1 := ha.outside hs
  have h2 := hb.outside hs
  by_cases h : a ≤ s.start ∧ s.stop ≤ b
  · exact .inl fun u _ _ => by omega
  · exact .inr fun u _ _ => by omega

/-- Nothing is taken of a span where nothing is removed. -/
theorem Span.intact_self (s : Span) (a : Nat) : s.Intact a a := .inr fun u _ _ => by omega

namespace Atomic

/-- The range that a deletion really removes: what the buffer that is taken over lacks from the new
cursor on, nothing where the deletion is intercepted without a buffer, and the host's own range
where it passes. -/
def removedRange (buffer : Text) (cursor : Nat) (intent : Intent) (words : Word.Segmenter)
    (o : Outcome) : Nat × Nat :=
  match o.buffer? with
  | some new =>
    let start := o.cursor?.getD cursor
    (start, start + (units buffer - units new))
  | none => if o.intercepted then (cursor, cursor) else Host.removal buffer cursor intent words

/-- What may become of a deletion. -/
inductive Deletes (m : Char) (buffer : Text) (cursor : Nat) (intent : Intent)
    (words : Word.Segmenter) : Outcome → Prop
  /-- A range around the cursor with legal ends is removed. -/
  | removes {a b : Nat} {new : Text} (ha : Legal m buffer a) (hb : Legal m buffer b)
      (hac : a ≤ cursor) (hcb : cursor ≤ b) (hnew : buffer.splice? a b [] = some new) :
      Deletes m buffer cursor intent words (.replace new a)
  /-- The cursor leaves a mention, and nothing is removed. -/
  | moves (c : Nat) : Deletes m buffer cursor intent words (.moveTo c)
  /-- Nothing happens. -/
  | suppresses : Deletes m buffer cursor intent words .suppress
  /-- The host removes its own range, which has legal ends. -/
  | passes (ha : Legal m buffer (Host.removal buffer cursor intent words).1)
      (hb : Legal m buffer (Host.removal buffer cursor intent words).2) :
      Deletes m buffer cursor intent words .pass

/-! ## One deletion -/

/-- The text between two places in order can be removed. -/
theorem exists_splice?_nil (ha : Addressable buffer a) (hb : Addressable buffer b) (hab : a ≤ b) :
    ∃ new, buffer.splice? a b [] = some new ∧ units new + (b - a) = units buffer := by
  obtain ⟨l, x, r, rfl, rfl, rfl⟩ := exists_append_append ha hb hab
  refine ⟨l ++ [] ++ r, splice?_append l x r [], ?_⟩
  simp only [units_append, units_nil]
  omega

/-- Removing a range around the cursor with legal ends is a deletion. -/
theorem deletes_remove (ha : Legal m buffer a) (hb : Legal m buffer b) (hac : a ≤ cursor)
    (hcb : cursor ≤ b) : Deletes m buffer cursor intent words (remove buffer a b) := by
  obtain ⟨new, hnew, -⟩ := exists_splice?_nil ha.1 hb.1 (Nat.le_trans hac hcb)
  rw [remove, hnew]
  exact .removes ha hb hac hcb hnew

/-- Deleting a mention from one of its ends. -/
theorem deletes_remove_span (hs : s ∈ scan m buffer) (hc : cursor = s.start ∨ cursor = s.stop) :
    Deletes m buffer cursor intent words (remove buffer s.start s.stop) := by
  have h := s.start_lt_stop hs
  exact deletes_remove (legal_start hs) (legal_stop hs) (by omega) (by omega)

/-- Deletion before the cursor. -/
theorem deleteBackward_deletes (hm : '\n' ≠ config.marker) (hc : Addressable buffer cursor)
    (mods : Modifiers) :
    Deletes config.marker buffer cursor (.deleteBackward mods) words
      (deleteBackward config buffer (scan config.marker buffer) cursor mods words) := by
  obtain ⟨ctrl, command⟩ := mods
  rw [deleteBackward]
  cases command with
  | true =>
    simp only [if_true]
    split
    · exact .moves _
    · next hout =>
      have hcur := legal_of_around?_eq_none hc hout
      exact .passes (Host.legal_lineStart hm hc).1 hcur
  | false =>
    simp only [Bool.false_eq_true, if_false]
    split
    · next s hend =>
      obtain ⟨hs, rfl⟩ := Span.mem_of_endingAt?_eq_some hend
      exact deletes_remove_span hs (.inr rfl)
    next hend =>
    cases ctrl with
    | true =>
      simp only [if_true]
      split
      · exact .moves _
      next hout =>
      have hcur := legal_of_around?_eq_none hc hout
      split
      · next s ht =>
        obtain ⟨hs, hlt⟩ := Host.mem_of_previousStart? words.backward hc ht
        exact deletes_remove (legal_start hs) hcur (Nat.le_of_lt hlt) (Nat.le_refl cursor)
      · next ht => exact .passes (Host.legal_previousStart? words.backward hcur ht) hcur
    | false =>
      simp only [Bool.false_eq_true, if_false]
      split
      · next s hstart =>
        obtain ⟨hs, rfl⟩ := Span.mem_of_startingAt?_eq_some hstart
        exact deletes_remove_span hs (.inl rfl)
      split
      · exact .moves _
      next hout =>
      have hcur := legal_of_around?_eq_none hc hout
      split
      · exact .suppresses
      · refine .passes (Host.legal_before_of_forall hc fun s hs hlt => ?_).1 hcur
        have h1 := Span.endingAt?_eq_none_iff.1 hend s hs
        have h2 := hcur.outside hs
        omega

/-- Deletion after the cursor. -/
theorem deleteForward_deletes (hc : Addressable buffer cursor) (mods : Modifiers) :
    Deletes m buffer cursor (.deleteForward mods) words
      (deleteForward buffer (scan m buffer) cursor mods words) := by
  obtain ⟨ctrl, command⟩ := mods
  rw [deleteForward]
  split
  · exact .moves _
  next hout =>
  have hcur := legal_of_around?_eq_none hc hout
  cases command with
  | true => exact .passes hcur (Host.legal_lineEnd hc).1
  | false =>
    simp only [Bool.false_eq_true, if_false]
    split
    · next s hstart =>
      obtain ⟨hs, rfl⟩ := Span.mem_of_startingAt?_eq_some hstart
      exact deletes_remove_span hs (.inl rfl)
    next hstart =>
    cases ctrl with
    | true =>
      simp only [if_true]
      split
      · next s ht =>
        obtain ⟨hs, hlt⟩ := Host.mem_of_nextEnd? words.forward hc ht
        exact deletes_remove hcur (legal_stop hs) (Nat.le_refl cursor) (Nat.le_of_lt hlt)
      · next ht => exact .passes hcur (Host.legal_nextEnd? words.forward hcur ht)
    | false =>
      refine .passes hcur (Host.legal_past_of_forall hc fun s hs hle => ?_).1
      have h1 := Span.startingAt?_eq_none_iff.1 hstart s hs
      have h2 := hcur.outside hs
      omega

/-! ## Every deletion -/

/-- What the library decides about a deletion is one of the cases above. -/
theorem intercept_deletes {mods : Modifiers} (words : Word.Segmenter)
    (hv : config.validate = .ok ()) (hc : Addressable buffer cursor)
    (hd : intent = .deleteBackward mods ∨ intent = .deleteForward mods) :
    Deletes config.marker buffer cursor intent words
      (intercept config buffer cursor intent words) := by
  rw [Host.intercept_of_addressable hc]
  rcases hd with rfl | rfl
  · exact deleteBackward_deletes (Config.marker_ne_newline hv) hc mods
  · exact deleteForward_deletes hc mods

/-- The removed range can be told from the new buffer and the new cursor. -/
theorem removedRange_replace (hab : a ≤ b) (h : buffer.splice? a b [] = some new) :
    removedRange buffer cursor intent words (.replace new a) = (a, b) := by
  obtain ⟨l, x, r, rfl, rfl, rfl, rfl⟩ := splice?_eq_some_iff.1 h
  simp only [removedRange, Outcome.replace, Option.getD_some, units_append, units_nil,
    Prod.mk.injEq, true_and]
  omega

/-- **A deletion takes a mention whole or not at all**, whether the library makes it or leaves it to
the host, and whatever the words are. What the library removes is one range around the cursor, with
neither end inside a mention, and the cursor stays at its start. -/
theorem deletion_takes_mentions_whole (config : Config) (words : Word.Segmenter) (buffer : Text)
    (cursor : Nat) (intent : Intent) (mods : Modifiers) (hv : config.validate = .ok ())
    (hc : Addressable buffer cursor)
    (hd : intent = .deleteBackward mods ∨ intent = .deleteForward mods) :
    let o := intercept config buffer cursor intent words
    let range := removedRange buffer cursor intent words o
    (∀ s ∈ scan config.marker buffer, s.Intact range.1 range.2) ∧
    ∀ new, o.buffer? = some new →
      buffer.splice? range.1 range.2 [] = some new ∧
      range.1 ≤ cursor ∧ cursor ≤ range.2 ∧ o.cursor? = some range.1 ∧
      ∀ s ∈ scan config.marker buffer,
        s.interior range.1 = false ∧ s.interior range.2 = false := by
  have h := intercept_deletes words hv hc hd
  revert h
  generalize intercept config buffer cursor intent words = o
  intro h
  cases h with
  | @removes a b new ha hb hac hcb hnew =>
    simp only [removedRange_replace (Nat.le_trans hac hcb) hnew]
    refine ⟨fun s hs => Span.intact_of_legal ha hb hs, fun new' h' => ?_⟩
    obtain rfl := Option.some.inj h'
    exact ⟨hnew, hac, hcb, rfl, fun s hs => ⟨ha.2 s hs, hb.2 s hs⟩⟩
  | moves c => exact ⟨fun s _ => s.intact_self cursor, fun _ h' => nomatch h'⟩
  | suppresses => exact ⟨fun s _ => s.intact_self cursor, fun _ h' => nomatch h'⟩
  | passes ha hb => exact ⟨fun s hs => Span.intact_of_legal ha hb hs, fun _ h' => nomatch h'⟩

/-- A word that ends inside a mention is deleted with all of the mention. -/
theorem deletion_takes_mentions_whole_word :
    ({} : Config).validate = .ok () ∧ Addressable "cc @user-123 ".toList 13 ∧
    (intercept {} "cc @user-123 ".toList 13 (.deleteBackward ⟨true, false⟩) .standard).buffer? =
      some "cc ".toList ∧
    splice? "cc @user-123 ".toList 3 13 [] = some "cc ".toList ∧
    ∀ s ∈ scan '@' "cc @user-123 ".toList, s.Intact 3 13 := by
  have hv : ({} : Config).validate = .ok () := by decide
  have hc : Addressable "cc @user-123 ".toList 13 := by decide
  have ho : intercept {} "cc @user-123 ".toList 13 (.deleteBackward ⟨true, false⟩) .standard =
      .replace "cc ".toList 3 := by decide +kernel
  have h := deletion_takes_mentions_whole {} .standard "cc @user-123 ".toList 13
    (.deleteBackward ⟨true, false⟩) ⟨true, false⟩ hv hc (.inl rfl)
  rw [ho] at h
  rw [ho]
  exact ⟨hv, hc, rfl, (h.2 _ rfl).1, h.1⟩

end Atomic

end Mentions
