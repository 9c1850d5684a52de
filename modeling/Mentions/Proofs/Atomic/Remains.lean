import Mentions.Proofs.Atomic.Deletion
import Mentions.Proofs.Scan.Append

/-!
# What a deletion leaves

A deletion removes a range with legal ends, and so joins the text before the range to the text
behind it. `remaining` lists the mentions outside the range where they are then. They are the
mentions of the two texts that are joined (`remaining_eq`), so the scan of the new buffer lists them
and no others exactly if the two texts do not fuse (`scan_eq_remaining_iff`).

What follows a mention is released, so nothing fuses where a range ends with a mention. This is the
case where one mention is deleted (`mention_deletion_disturbs_no_other`), and where a word deletion
to the right is widened. A word deletion to the left is widened to the start of a mention but ends
at the cursor, and there the text may fuse with what stands before the mention:
`widened_deletion_keeps_mentions` says when, and `widened_deletion_may_fuse` that it happens.
-/

namespace Mentions

open Text

variable {m : Char} {l x r t : Text} {a b n : Nat} {s : Span} {spans spans' : List Span}

/-! ## Spans without a range of the buffer -/

/-- The span where it is without the range of the buffer from `a` to `b`, if it is outside. -/
def Span.without (a b : Nat) (s : Span) : Span :=
  if s.stop ≤ a then s else ⟨s.start - (b - a), s.stop - (b - a), s.text⟩

/-- The spans outside a range, where they are without it. -/
def remaining (a b : Nat) (spans : List Span) : List Span :=
  (spans.filter fun s => s.stop ≤ a || b ≤ s.start).map (Span.without a b)

theorem remaining_append (a b : Nat) (spans spans' : List Span) :
    remaining a b (spans ++ spans') = remaining a b spans ++ remaining a b spans' := by
  simp only [remaining, List.filter_append, List.map_append]

/-- Spans before the range stay where they are. -/
theorem remaining_of_stop_le (h : ∀ s ∈ spans, s.stop ≤ a) : remaining a b spans = spans := by
  have hall : spans.filter (fun s => s.stop ≤ a || b ≤ s.start) = spans :=
    List.filter_eq_self.2 fun s hs => by simp [h s hs]
  have hid : spans.map (Span.without a b) = spans.map id :=
    List.map_congr_left fun s hs => if_pos (h s hs)
  rw [remaining, hall, hid, List.map_id]

/-- Spans in the range are gone. -/
theorem remaining_of_inside (h : ∀ s ∈ spans, a < s.stop ∧ s.start < b) :
    remaining a b spans = [] := by
  have hnone : spans.filter (fun s => s.stop ≤ a || b ≤ s.start) = [] :=
    List.filter_eq_nil_iff.2 fun s hs => by simp [h s hs]
  rw [remaining, hnone, List.map_nil]

/-- Spans behind the range move to the left by its length. -/
theorem remaining_shift (h : ∀ s ∈ spans, 0 < s.stop) :
    remaining a (a + n) (spans.map (Span.shift (a + n))) = spans.map (Span.shift a) := by
  have hall : (spans.map (Span.shift (a + n))).filter (fun s => s.stop ≤ a || a + n ≤ s.start) =
      spans.map (Span.shift (a + n)) := by
    refine List.filter_eq_self.2 fun s hs => ?_
    obtain ⟨s, -, rfl⟩ := List.mem_map.1 hs
    simp
  rw [remaining, hall, List.map_map]
  refine List.map_congr_left fun s hs => ?_
  have hpos := h s hs
  have hstop : ¬(s.shift (a + n)).stop ≤ a := by
    rw [Span.shift_stop]
    omega
  rw [Function.comp_apply, Span.without, if_neg hstop, Span.shift, Span.mk.injEq]
  simp only [Span.shift_start, Span.shift_stop, Span.shift_text, and_true]
  omega

theorem Span.stop_pos (hs : s ∈ scan m t) : 0 < s.stop :=
  Nat.lt_of_le_of_lt (Nat.zero_le _) (s.start_lt_stop hs)

/-- What remains of the mentions without a range with legal ends are the mentions of the texts
before it and behind it. -/
theorem remaining_eq (hm : isBodyChar m = false) (ha : Legal m (l ++ (x ++ r)) (units l))
    (hb : Legal m (l ++ (x ++ r)) (units l + units x)) :
    remaining (units l) (units l + units x) (scan m (l ++ (x ++ r))) =
      scan m l ++ (scan m r).map (Span.shift (units l)) := by
  have hleft : ¬Fuses m l (x ++ r) := (legal_append_iff hm).1 ha
  have hright : ¬Fuses m x r := by
    intro hf
    rw [← List.append_assoc, ← units_append] at hb
    exact (legal_append_iff hm).1 hb (hf.append_left l)
  rw [scan_append hleft, scan_append hright, List.map_append, map_shift_shift,
    Nat.add_comm (units x), remaining_append, remaining_append]
  have h1 : remaining (units l) (units l + units x) (scan m l) = scan m l :=
    remaining_of_stop_le fun s hs => (s.addressable_stop hs).le
  have h2 : remaining (units l) (units l + units x) ((scan m x).map (Span.shift (units l))) =
      [] := by
    refine remaining_of_inside fun s hs => ?_
    obtain ⟨s₀, hs₀, rfl⟩ := List.mem_map.1 hs
    have hlt := s₀.start_lt_stop hs₀
    have hle := (s₀.addressable_stop hs₀).le
    simp only [Span.shift_start, Span.shift_stop]
    omega
  have h3 := remaining_shift (a := units l) (n := units x) fun s (hs : s ∈ scan m r) =>
    s.stop_pos hs
  rw [h1, h2, h3, List.nil_append]

/-- Without a range with legal ends, a buffer has the mentions outside the range and no others
exactly if the texts before and behind the range do not fuse. -/
theorem scan_eq_remaining_iff (hm : isBodyChar m = false)
    (ha : Legal m (l ++ (x ++ r)) (units l)) (hb : Legal m (l ++ (x ++ r)) (units l + units x)) :
    scan m (l ++ r) = remaining (units l) (units l + units x) (scan m (l ++ (x ++ r))) ↔
      ¬Fuses m l r := by
  rw [remaining_eq hm ha hb, scan_append_iff hm]

/-- What follows a range that ends with a mention does not fuse with what stands before it. -/
theorem Span.not_fuses_of_stop_eq (hs : s ∈ scan m (l ++ (x ++ r)))
    (h : s.stop = units l + units x) : ¬Fuses m l r := by
  intro hf
  rw [← List.append_assoc] at hs
  rw [← units_append] at h
  obtain ⟨-, -, -, -, hr, -⟩ := exists_of_stop_eq hs h
  exact hf.not_released hr

namespace Atomic

variable {config : Config} {buffer : Text} {cursor target : Nat} {intent : Intent}
  {words : Word.Segmenter}

/-! ## Which range is removed -/

/-- Removing a range with legal ends joins the text before it to the text behind it. Unless the two
fuse, the other mentions remain and the cursor is in none of them. -/
theorem exists_remove_eq (hm : isBodyChar m = false) (ha : Legal m buffer a)
    (hb : Legal m buffer b) (hab : a ≤ b) :
    ∃ l x r, buffer = l ++ (x ++ r) ∧ units l = a ∧ units l + units x = b ∧
      remove buffer a b = .replace (l ++ r) a ∧
      (scan m (l ++ r) = remaining a b (scan m buffer) ↔ ¬Fuses m l r) ∧
      (Legal m (l ++ r) a ↔ ¬Fuses m l r) := by
  obtain ⟨l, x, r, rfl, rfl, rfl⟩ := exists_append_append ha.1 hb.1 hab
  refine ⟨l, x, r, rfl, rfl, rfl, ?_, scan_eq_remaining_iff hm ha hb, legal_append_iff hm⟩
  rw [remove, splice?_append, List.append_nil]

/-- At the end of a mention, the mention is deleted to the left. -/
theorem deleteBackward_stop (hs : s ∈ scan m buffer) (ctrl : Bool) :
    deleteBackward config buffer (scan m buffer) s.stop ⟨ctrl, false⟩ words =
      remove buffer s.start s.stop := by
  simp only [deleteBackward, Bool.false_eq_true, if_false, s.endingAt?_stop hs]

/-- At the start of a mention, the mention is deleted to the left unless another one ends there. -/
theorem deleteBackward_start (hs : s ∈ scan m buffer)
    (hend : ∀ s' ∈ scan m buffer, s'.stop ≠ s.start) :
    deleteBackward config buffer (scan m buffer) s.start ⟨false, false⟩ words =
      remove buffer s.start s.stop := by
  simp only [deleteBackward, Bool.false_eq_true, if_false, Span.endingAt?_eq_none_iff.2 hend,
    s.startingAt?_start hs]

/-- At the start of a mention, the mention is deleted to the right. -/
theorem deleteForward_start (hs : s ∈ scan m buffer) (ctrl : Bool) :
    deleteForward buffer (scan m buffer) s.start ⟨ctrl, false⟩ words =
      remove buffer s.start s.stop := by
  simp only [deleteForward, (legal_start hs).around?_eq_none, Bool.false_eq_true, if_false,
    s.startingAt?_start hs]

/-- A word deletion to the left that would stop in a mention goes on to its start. -/
theorem deleteBackward_word (hc : Legal m buffer cursor)
    (hend : ∀ s' ∈ scan m buffer, s'.stop ≠ cursor)
    (ht : words.backward.previousStart? buffer cursor = some target) (hs : s ∈ scan m buffer)
    (hin : s.interior target = true) :
    deleteBackward config buffer (scan m buffer) cursor ⟨true, false⟩ words =
      remove buffer s.start cursor := by
  simp only [deleteBackward, Bool.false_eq_true, if_false, if_true,
    Span.endingAt?_eq_none_iff.2 hend, hc.around?_eq_none, ht, Option.bind_some,
    s.around?_of_interior hs hin]

/-- A word deletion to the right that would stop in a mention goes on to its end. -/
theorem deleteForward_word (hc : Legal m buffer cursor)
    (hstart : ∀ s' ∈ scan m buffer, s'.start ≠ cursor)
    (ht : words.forward.nextEnd? buffer cursor = some target) (hs : s ∈ scan m buffer)
    (hin : s.interior target = true) :
    deleteForward buffer (scan m buffer) cursor ⟨true, false⟩ words =
      remove buffer cursor s.stop := by
  simp only [deleteForward, Bool.false_eq_true, if_false, if_true,
    Span.startingAt?_eq_none_iff.2 hstart, hc.around?_eq_none, ht, Option.bind_some,
    s.around?_of_interior hs hin]

/-! ## One mention -/

/-- The deletions that take exactly the mention `s`, from one of its ends. Backspace at its start
takes the mention that ends there instead, if there is one. -/
inductive DeletesMention (spans : List Span) (s : Span) : Nat → Intent → Prop
  | fromStop (ctrl : Bool) : DeletesMention spans s s.stop (.deleteBackward ⟨ctrl, false⟩)
  | fromStart (ctrl : Bool) : DeletesMention spans s s.start (.deleteForward ⟨ctrl, false⟩)
  | backAtStart (h : ∀ s' ∈ spans, s'.stop ≠ s.start) :
    DeletesMention spans s s.start (.deleteBackward ⟨false, false⟩)

/-- The deletion of a mention removes its range. -/
theorem DeletesMention.intercept_eq (hs : s ∈ scan config.marker buffer)
    (h : DeletesMention (scan config.marker buffer) s cursor intent) :
    intercept config buffer cursor intent words = remove buffer s.start s.stop := by
  cases h with
  | fromStop ctrl =>
    rw [Host.intercept_of_addressable (s.addressable_stop hs)]
    exact deleteBackward_stop hs ctrl
  | fromStart ctrl =>
    rw [Host.intercept_of_addressable (s.addressable_start hs)]
    exact deleteForward_start hs ctrl
  | backAtStart hend =>
    rw [Host.intercept_of_addressable (s.addressable_start hs)]
    exact deleteBackward_start hs hend

/-- Without the range of a mention, the other mentions remain, and the cursor is in none of them. -/
theorem exists_remove_span (hm : isBodyChar m = false) (hs : s ∈ scan m buffer) :
    ∃ new, remove buffer s.start s.stop = .replace new s.start ∧
      buffer.splice? s.start s.stop [] = some new ∧
      scan m new = remaining s.start s.stop (scan m buffer) ∧ Legal m new s.start := by
  have hle := Nat.le_of_lt (s.start_lt_stop hs)
  obtain ⟨l, x, r, hbuffer, hl, hx, hremove, hscan, hlegal⟩ :=
    exists_remove_eq hm (legal_start hs) (legal_stop hs) hle
  have hf : ¬Fuses m l r := by
    rw [hbuffer] at hs
    exact s.not_fuses_of_stop_eq hs hx.symm
  refine ⟨l ++ r, hremove, ?_, hscan.2 hf, hlegal.2 hf⟩
  rw [hbuffer, ← hl, ← hx, splice?_append, List.append_nil]

/-- The mentions outside a mention are all the other ones. -/
theorem remaining_span (hs : s ∈ scan m t) :
    remaining s.start s.stop (scan m t) =
      ((scan m t).filter (· ≠ s)).map (Span.without s.start s.stop) := by
  refine congrArg _ (List.filter_congr fun s' hs' => ?_)
  rw [Bool.eq_iff_iff]
  simp only [Bool.or_eq_true, decide_eq_true_eq]
  constructor
  · rintro h rfl
    have := s'.start_lt_stop hs
    omega
  · exact fun hne => Span.apart_of_ne hs' hs hne

/-- **The deletion of a mention disturbs no other one.** From either end it takes the mention and
nothing else, and the cursor is where it was. The other mentions keep their texts, those behind it
move to the left by its length, and no others appear, not even around the cursor. -/
theorem mention_deletion_disturbs_no_other (config : Config) (words : Word.Segmenter)
    (buffer : Text) (s : Span) (hv : config.validate = .ok ())
    (hs : s ∈ scan config.marker buffer) :
    ∃ new, buffer.splice? s.start s.stop [] = some new ∧
      (∀ ctrl, intercept config buffer s.stop (.deleteBackward ⟨ctrl, false⟩) words =
        .replace new s.start) ∧
      (∀ ctrl, intercept config buffer s.start (.deleteForward ⟨ctrl, false⟩) words =
        .replace new s.start) ∧
      ((∀ s' ∈ scan config.marker buffer, s'.stop ≠ s.start) →
        intercept config buffer s.start (.deleteBackward ⟨false, false⟩) words =
          .replace new s.start) ∧
      scan config.marker new =
        ((scan config.marker buffer).filter (· ≠ s)).map (Span.without s.start s.stop) ∧
      Legal config.marker new s.start := by
  have hm := (Config.marker_of_validate hv).1
  obtain ⟨new, hremove, hnew, hscan, hlegal⟩ := exists_remove_span hm hs
  refine ⟨new, hnew, ?_, ?_, ?_, ?_, hlegal⟩
  · intro ctrl
    exact ((DeletesMention.fromStop ctrl).intercept_eq hs).trans hremove
  · intro ctrl
    exact ((DeletesMention.fromStart ctrl).intercept_eq hs).trans hremove
  · intro hend
    exact ((DeletesMention.backAtStart hend).intercept_eq hs).trans hremove
  · rw [hscan]
    exact remaining_span hs

/-- Of three mentions in a row the middle one is deleted. -/
theorem mention_deletion_disturbs_no_other_middle :
    ({} : Config).validate = .ok () ∧
    (⟨3, 7, "@bob".toList⟩ : Span) ∈ scan '@' "@al@bob@cy".toList ∧
    intercept {} "@al@bob@cy".toList 7 (.deleteBackward {}) .standard =
      .replace "@al@cy".toList 3 ∧
    scan '@' "@al@cy".toList = [⟨0, 3, "@al".toList⟩, ⟨3, 6, "@cy".toList⟩] ∧
    Legal '@' "@al@cy".toList 3 := by
  have hv : ({} : Config).validate = .ok () := by decide
  have hs : (⟨3, 7, "@bob".toList⟩ : Span) ∈ scan '@' "@al@bob@cy".toList := by decide
  obtain ⟨new, hnew, hback, -, -, hscan, hlegal⟩ :=
    mention_deletion_disturbs_no_other {} .standard "@al@bob@cy".toList _ hv hs
  have hcut : splice? "@al@bob@cy".toList 3 7 [] = some "@al@cy".toList := by decide
  obtain rfl := Option.some.inj (hnew.symm.trans hcut)
  refine ⟨hv, hs, hback false, hscan.trans ?_, hlegal⟩
  decide

/-! ## Words -/

/-- **A widened word deletion keeps the mentions outside its range**, whatever the words are: to the
right always, to the left unless what follows the cursor fuses with what stands before the mention
that is taken; then a mention lies across the join. From inside a mention the cursor is moved and
nothing is deleted, and a mention that ends at the cursor, or to the right one that starts there, is
deleted alone. -/
theorem widened_deletion_keeps_mentions (config : Config) (words : Word.Segmenter)
    (buffer : Text) (cursor target : Nat) (s : Span) (hv : config.validate = .ok ())
    (hc : Legal config.marker buffer cursor) (hs : s ∈ scan config.marker buffer)
    (hin : s.interior target = true) :
    (words.backward.previousStart? buffer cursor = some target →
      (∀ s' ∈ scan config.marker buffer, s'.stop ≠ cursor) →
      ∃ l x r, buffer = l ++ (x ++ r) ∧ units l = s.start ∧ units l + units x = cursor ∧
        intercept config buffer cursor (.deleteBackward ⟨true, false⟩) words =
          .replace (l ++ r) s.start ∧
        (scan config.marker (l ++ r) =
          remaining s.start cursor (scan config.marker buffer) ↔ ¬Fuses config.marker l r) ∧
        (Legal config.marker (l ++ r) s.start ↔ ¬Fuses config.marker l r)) ∧
    (words.forward.nextEnd? buffer cursor = some target →
      (∀ s' ∈ scan config.marker buffer, s'.start ≠ cursor) →
      ∃ l x r, buffer = l ++ (x ++ r) ∧ units l = cursor ∧ units l + units x = s.stop ∧
        intercept config buffer cursor (.deleteForward ⟨true, false⟩) words =
          .replace (l ++ r) cursor ∧
        scan config.marker (l ++ r) = remaining cursor s.stop (scan config.marker buffer) ∧
        Legal config.marker (l ++ r) cursor) := by
  have hm := (Config.marker_of_validate hv).1
  obtain ⟨h1, h2⟩ := Span.interior_iff.1 hin
  constructor
  · intro ht hend
    have hlt := (words.backward.previousStart?_spec hc.1 ht).2
    obtain ⟨l, x, r, hbuffer, hl, hx, hremove, hscan, hlegal⟩ :=
      exists_remove_eq hm (legal_start hs) hc (by omega)
    refine ⟨l, x, r, hbuffer, hl, hx, ?_, hscan, hlegal⟩
    rw [Host.intercept_of_addressable hc.1]
    exact (deleteBackward_word hc hend ht hs hin).trans hremove
  · intro ht hstart
    have hlt := (words.forward.nextEnd?_spec hc.1 ht).2
    obtain ⟨l, x, r, hbuffer, hl, hx, hremove, hscan, hlegal⟩ :=
      exists_remove_eq hm hc (legal_stop hs) (by omega)
    have hf : ¬Fuses config.marker l r := by
      rw [hbuffer] at hs
      exact s.not_fuses_of_stop_eq hs hx.symm
    refine ⟨l, x, r, hbuffer, hl, hx, ?_, hscan.2 hf, hlegal.2 hf⟩
    rw [Host.intercept_of_addressable hc.1]
    exact (deleteForward_word hc hstart ht hs hin).trans hremove

/-- The word before the cursor is deleted with the mention around it, and the mention before that
one remains. -/
theorem widened_deletion_keeps_mentions_separate :
    ({} : Config).validate = .ok () ∧ Legal '@' "@al @user-123 ok".toList 14 ∧
    (⟨4, 13, "@user-123".toList⟩ : Span) ∈ scan '@' "@al @user-123 ok".toList ∧
    (⟨4, 13, "@user-123".toList⟩ : Span).interior 10 = true ∧
    intercept {} "@al @user-123 ok".toList 14 (.deleteBackward ⟨true, false⟩) .standard =
      .replace "@al ok".toList 4 ∧
    scan '@' "@al ok".toList = remaining 4 14 (scan '@' "@al @user-123 ok".toList) := by
  have hv : ({} : Config).validate = .ok () := by decide
  have hc : Legal '@' "@al @user-123 ok".toList 14 := by decide
  have hs : (⟨4, 13, "@user-123".toList⟩ : Span) ∈ scan '@' "@al @user-123 ok".toList := by decide
  have hin : (⟨4, 13, "@user-123".toList⟩ : Span).interior 10 = true := by decide
  have ht : Word.Segmenter.standard.backward.previousStart? "@al @user-123 ok".toList 14 =
      some 10 := by decide +kernel
  have hend : ∀ s' ∈ scan '@' "@al @user-123 ok".toList, s'.stop ≠ 14 := by decide
  have hout : intercept {} "@al @user-123 ok".toList 14 (.deleteBackward ⟨true, false⟩) .standard =
      .replace "@al ok".toList 4 := by decide +kernel
  obtain ⟨l, x, r, -, -, -, ho, hscan, hlegal⟩ :=
    (widened_deletion_keeps_mentions {} .standard "@al @user-123 ok".toList 14 10 _ hv hc hs hin).1
      ht hend
  have hnew : l ++ r = "@al ok".toList := by
    simpa [Outcome.replace] using ho.symm.trans hout
  rw [hnew] at hscan hlegal
  have hjoin := hlegal.1 (by decide : Legal '@' "@al ok".toList 4)
  exact ⟨hv, hc, hs, hin, hout, hscan.2 hjoin⟩

/-- Where a mention stands right before the one that is taken, the text behind the cursor becomes
part of it. -/
theorem widened_deletion_may_fuse :
    ({} : Config).validate = .ok () ∧ Addressable "@al@bob foo".toList 8 ∧
    Word.Segmenter.standard.backward.previousStart? "@al@bob foo".toList 8 = some 4 ∧
    (⟨3, 7, "@bob".toList⟩ : Span) ∈ scan '@' "@al@bob foo".toList ∧
    (⟨3, 7, "@bob".toList⟩ : Span).interior 4 = true ∧
    intercept {} "@al@bob foo".toList 8 (.deleteBackward ⟨true, false⟩) .standard =
      .replace "@alfoo".toList 3 ∧
    remaining 3 8 (scan '@' "@al@bob foo".toList) = [⟨0, 3, "@al".toList⟩] ∧
    scan '@' "@alfoo".toList = [⟨0, 6, "@alfoo".toList⟩] ∧
    ¬Legal '@' "@alfoo".toList 3 := by
  refine ⟨by decide, by decide, by decide +kernel, by decide, by decide, by decide +kernel,
    by decide, by decide, by decide⟩

end Atomic

end Mentions
