import Mentions.Proofs.Host
import Mentions.Proofs.Scan.Append

/-!
# The lines above

An edit that does not work by words looks no further to the left than the start of the cursor's
line, and no mention reaches over a line feed. So what becomes of such an edit does not depend on
the lines above: behind them, the same happens as much further to the right (`Outcome.behind`).

Behind lines above, the mentions of a text are listed as much further to the right, after others
that end before the last line feed (`EndBefore`). So a look-up that goes by position finds none of
the others (`find?_append_shift`), and each function decides alike in the two buffers, one lemma for
each. Only two of them look at the text before the cursor: the start of its line is never above
(`lineStart_behind`), and the character before the first line is no space (`isSeparating_behind`).

Main statement: `apply_ignores_lines_above`.
-/

namespace Mentions

open Text

variable {m : Char} {l t x : Text} {u n : Nat} {above spans : List Span}
  {config : Config} {intent : Intent} {words : Word.Segmenter}

/-- Whether an edit works by words. -/
def Intent.byWord : Intent → Bool
  | .moveLeft m | .moveRight m | .deleteBackward m | .deleteForward m => m.ctrl
  | .moveHome | .moveEnd | .insertChar _ => false

/-! ## Outcomes behind a text -/

namespace Outcome

/-- The outcome as it is with a text before the buffer. -/
def behind (l : Text) (o : Outcome) : Outcome :=
  ⟨o.intercepted, o.cursor?.map (units l + ·), o.buffer?.map (l ++ ·)⟩

@[simp] theorem behind_pass (l : Text) : pass.behind l = pass := rfl

@[simp] theorem behind_suppress (l : Text) : suppress.behind l = suppress := rfl

@[simp] theorem behind_moveTo (l : Text) (c : Nat) :
    (moveTo c).behind l = moveTo (units l + c) := rfl

@[simp] theorem behind_replace (l t : Text) (c : Nat) :
    (replace t c).behind l = replace (l ++ t) (units l + c) := rfl

end Outcome

/-! ## Looking up a span behind others -/

/-- The spans lie before an offset, and none of them ends at it. -/
def EndBefore (n : Nat) (spans : List Span) : Prop := ∀ s ∈ spans, s.start < n ∧ s.stop < n

/-- A look-up that finds no span above finds behind them what it finds without them. -/
theorem find?_append_shift {p q : Span → Bool} (hp : ∀ s ∈ above, p s = false)
    (hq : ∀ s, p (s.shift n) = q s) :
    (above ++ spans.map (Span.shift n)).find? p = (spans.find? q).map (Span.shift n) := by
  have hnone : above.find? p = none := List.find?_eq_none.2 fun s hs => by simp [hp s hs]
  have hpq : p ∘ Span.shift n = q := funext hq
  rw [List.find?_append, hnone, Option.none_or, List.find?_map, hpq]

theorem around?_behind (h : EndBefore n above) (u : Nat) :
    Span.around? (above ++ spans.map (Span.shift n)) (n + u) =
      (Span.around? spans u).map (Span.shift n) := by
  refine find?_append_shift (fun s hs => ?_) fun s => ?_
  · have := h s hs
    exact Span.interior_eq_false_iff.2 (.inr (by omega))
  · rw [Bool.eq_iff_iff, Span.interior_iff, Span.interior_iff, Span.shift_start, Span.shift_stop]
    omega

theorem startingAt?_behind (h : EndBefore n above) (u : Nat) :
    Span.startingAt? (above ++ spans.map (Span.shift n)) (n + u) =
      (Span.startingAt? spans u).map (Span.shift n) := by
  refine find?_append_shift (fun s hs => ?_) fun s => ?_
  · have := h s hs
    exact decide_eq_false (by omega)
  · rw [decide_eq_decide, Span.shift_start]
    omega

theorem endingAt?_behind (h : EndBefore n above) (u : Nat) :
    Span.endingAt? (above ++ spans.map (Span.shift n)) (n + u) =
      (Span.endingAt? spans u).map (Span.shift n) := by
  refine find?_append_shift (fun s hs => ?_) fun s => ?_
  · have := h s hs
    exact decide_eq_false (by omega)
  · rw [decide_eq_decide, Span.shift_stop]
    omega

/-- The mentions of a text with lines above it. -/
theorem scan_behind (hm : '\n' ≠ m) (x t : Text) :
    ∃ above, EndBefore (units (x ++ ['\n'])) above ∧
      scan m (x ++ ['\n'] ++ t) = above ++ (scan m t).map (Span.shift (units (x ++ ['\n']))) := by
  have hunits : units (x ++ ['\n']) = units x + unitsOf '\n' := units_append _ _
  refine ⟨scan m x, fun s hs => ?_, ?_⟩
  · have hlong := s.start_lt_stop hs
    have hle := (s.addressable_stop hs).le
    have hpos := unitsOf_pos '\n'
    omega
  · rw [hunits, List.append_assoc]
    exact scan_append_cons (by decide) hm

namespace Atomic

/-! ## Movements -/

theorem moveTo_shift_start (l : Text) (s : Span) :
    Outcome.moveTo (s.shift (units l)).start = (Outcome.moveTo s.start).behind l := by
  rw [Outcome.behind_moveTo, Span.shift_start, Nat.add_comm]

theorem moveTo_shift_stop (l : Text) (s : Span) :
    Outcome.moveTo (s.shift (units l)).stop = (Outcome.moveTo s.stop).behind l := by
  rw [Outcome.behind_moveTo, Span.shift_stop, Nat.add_comm]

/-- One character to the left. -/
theorem moveLeft_behind (h : EndBefore (units l) above) (u : Nat) :
    moveLeft (above ++ spans.map (Span.shift (units l))) (units l + u) =
      (moveLeft spans u).behind l := by
  have hahead : ahead? (above ++ spans.map (Span.shift (units l))) (units l + u) =
      (ahead? spans u).map (Span.shift (units l)) := by
    refine find?_append_shift (fun s hs => ?_) fun s => ?_
    · have := h s hs
      simp only [Bool.and_eq_false_iff, decide_eq_false_iff_not]
      omega
    · rw [Bool.eq_iff_iff]
      simp only [Bool.and_eq_true, decide_eq_true_eq]
      rw [Span.shift_start, Span.shift_stop]
      omega
  rw [moveLeft, moveLeft, hahead]
  cases ahead? spans u with
  | none => rfl
  | some s => exact moveTo_shift_start l s

/-- One character to the right. -/
theorem moveRight_behind (h : EndBefore (units l) above) (u : Nat) :
    moveRight (l ++ t) (above ++ spans.map (Span.shift (units l))) (units l + u) =
      (moveRight t spans u).behind l := by
  unfold moveRight
  rw [charAt?_append_add]
  extract_lets there here
  have hlanding : there = units l + here := by
    simp only [there, here]
    cases charAt? t u with
    | none => rfl
    | some c => exact Nat.add_assoc _ _ _
  have hfind : (above ++ spans.map (Span.shift (units l))).find?
        (fun s => s.start ≤ there && units l + u < s.stop) =
      (spans.find? fun s => s.start ≤ here && u < s.stop).map (Span.shift (units l)) := by
    refine find?_append_shift (fun s hs => ?_) fun s => ?_
    · have := h s hs
      simp only [Bool.and_eq_false_iff, decide_eq_false_iff_not]
      omega
    · rw [Bool.eq_iff_iff, hlanding]
      simp only [Bool.and_eq_true, decide_eq_true_eq]
      rw [Span.shift_start, Span.shift_stop]
      omega
  rw [hfind]
  cases spans.find? fun s => s.start ≤ here && u < s.stop with
  | none => rfl
  | some s => exact moveTo_shift_stop l s

/-- The cursor's line starts behind the lines above it. -/
theorem lineStart_behind (hu : Addressable t u) :
    lineStart (x ++ ['\n'] ++ t) (units (x ++ ['\n']) + u) =
      units (x ++ ['\n']) + lineStart t u := by
  obtain ⟨before, after, rfl, rfl⟩ := addressable_iff.1 hu
  have hthrough : takeThrough (fun c => decide (c = '\n')) (x ++ ['\n'] ++ before) =
      x ++ ['\n'] ++ takeThrough (fun c => decide (c = '\n')) before := by
    simp only [List.append_assoc, List.singleton_append]
    exact takeThrough_append_cons (by decide)
  simp only [lineStart, cut?_append_add, cut?_append, Option.map_some, hthrough]
  exact units_append _ _

/-- To the start of the line. -/
theorem moveHome_behind (hu : Addressable t u) (h : EndBefore (units (x ++ ['\n'])) above) :
    moveHome (x ++ ['\n'] ++ t) (above ++ spans.map (Span.shift (units (x ++ ['\n']))))
        (units (x ++ ['\n']) + u) =
      (moveHome t spans u).behind (x ++ ['\n']) := by
  rw [moveHome, moveHome, lineStart_behind hu, around?_behind h]
  generalize x ++ ['\n'] = l at h ⊢
  generalize lineStart t u = origin
  have hfilter : (above ++ spans.map (Span.shift (units l))).filter
        (fun s => units l + origin ≤ s.start && s.stop < units l + u) =
      (spans.filter fun s => origin ≤ s.start && s.stop < u).map (Span.shift (units l)) := by
    have hnone : above.filter (fun s => units l + origin ≤ s.start && s.stop < units l + u) =
        [] := by
      refine List.filter_eq_nil_iff.2 fun s hs => ?_
      have := h s hs
      simp only [Bool.and_eq_true, decide_eq_true_eq]
      omega
    rw [List.filter_append, hnone, List.nil_append, List.filter_map]
    refine congrArg _ (List.filter_congr fun s _ => ?_)
    rw [Bool.eq_iff_iff]
    simp only [Function.comp_apply, Bool.and_eq_true, decide_eq_true_eq]
    rw [Span.shift_start, Span.shift_stop]
    omega
  rw [hfilter, List.getLast?_map]
  cases (spans.filter fun s => origin ≤ s.start && s.stop < u).getLast? with
  | some s => exact moveTo_shift_stop l s
  | none =>
    cases Span.around? spans u with
    | none => rfl
    | some s => exact moveTo_shift_start l s

/-- To the end of the line. -/
theorem moveEnd_behind (h : EndBefore (units l) above) (u : Nat) :
    moveEnd (above ++ spans.map (Span.shift (units l))) (units l + u) =
      (moveEnd spans u).behind l := by
  rw [moveEnd, moveEnd, around?_behind h]
  cases Span.around? spans u with
  | none => rfl
  | some s => exact moveTo_shift_stop l s

/-! ## Deletions -/

theorem remove_shift (l t : Text) (s : Span) :
    remove (l ++ t) (s.shift (units l)).start (s.shift (units l)).stop =
      (remove t s.start s.stop).behind l := by
  rw [remove, remove, Span.shift_start, Span.shift_stop, Nat.add_comm s.start,
    Nat.add_comm s.stop, splice?_append_add]
  cases splice? t s.start s.stop [] with
  | none => exact (Outcome.behind_pass l).symm
  | some new => rw [Option.map_some, Outcome.behind_replace, Nat.add_comm]

/-- The space that keeps a mention apart from the text after it. At the start of a line the
character before the cursor is the line feed, even if a mention ends before that. -/
theorem isSeparating_behind (h : EndBefore (units (x ++ ['\n'])) above) (u : Nat) :
    isSeparating (x ++ ['\n'] ++ t) (above ++ spans.map (Span.shift (units (x ++ ['\n']))))
        (units (x ++ ['\n']) + u) =
      isSeparating t spans u := by
  cases u with
  | zero =>
    have hu : units (x ++ ['\n']) + 0 - 1 = units x := by
      rw [units_append]
      rfl
    have hchar : charAt? (x ++ ['\n'] ++ t) (units x) = some '\n' := by
      rw [List.append_assoc, charAt?_append]
      rfl
    have hspace : decide (some '\n' = some ' ') = false := by decide
    simp only [isSeparating, hu, hchar, hspace, Bool.and_false, Bool.false_and, Nat.lt_irrefl,
      decide_false]
  | succ k =>
    have hu : units (x ++ ['\n']) + (k + 1) - 1 = units (x ++ ['\n']) + k := rfl
    simp only [isSeparating, hu, Nat.add_sub_cancel, charAt?_append_add, tail?_append_add,
      endingAt?_behind h, Option.isSome_map, Nat.succ_pos, Nat.add_pos_right]

/-- Deletion of a character or the line before the cursor. -/
theorem deleteBackward_behind (h : EndBefore (units (x ++ ['\n'])) above) (u : Nat)
    (command : Bool) :
    deleteBackward config (x ++ ['\n'] ++ t)
        (above ++ spans.map (Span.shift (units (x ++ ['\n'])))) (units (x ++ ['\n']) + u)
        ⟨false, command⟩ words =
      (deleteBackward config t spans u ⟨false, command⟩ words).behind (x ++ ['\n']) := by
  simp only [deleteBackward, around?_behind h, startingAt?_behind h, endingAt?_behind h,
    isSeparating_behind h, Bool.false_eq_true, if_false]
  generalize x ++ ['\n'] = l
  cases command with
  | true =>
    cases Span.around? spans u with
    | none => rfl
    | some s => exact moveTo_shift_start l s
  | false =>
    simp only [Bool.false_eq_true, if_false]
    cases Span.endingAt? spans u with
    | some s => exact remove_shift l t s
    | none =>
      cases Span.startingAt? spans u with
      | some s => exact remove_shift l t s
      | none =>
        cases Span.around? spans u with
        | some s => exact moveTo_shift_start l s
        | none => cases (config.guardTrailingSpace && isSeparating t spans u) <;> rfl

/-- Deletion of a character or the line after the cursor. -/
theorem deleteForward_behind (h : EndBefore (units l) above) (u : Nat) (command : Bool) :
    deleteForward (l ++ t) (above ++ spans.map (Span.shift (units l))) (units l + u)
        ⟨false, command⟩ words =
      (deleteForward t spans u ⟨false, command⟩ words).behind l := by
  simp only [deleteForward, around?_behind h, startingAt?_behind h, Bool.false_eq_true, if_false]
  cases Span.around? spans u with
  | some s => exact moveTo_shift_stop l s
  | none =>
    cases command with
    | true => rfl
    | false =>
      cases Span.startingAt? spans u with
      | none => rfl
      | some s => exact remove_shift l t s

/-- Any movement or deletion that does not work by words. -/
theorem outcome_behind (hu : Addressable t u) (hi : intent.byWord = false)
    (h : EndBefore (units (x ++ ['\n'])) above) :
    outcome config (x ++ ['\n'] ++ t) (above ++ spans.map (Span.shift (units (x ++ ['\n']))))
        (units (x ++ ['\n']) + u) intent words =
      (outcome config t spans u intent words).behind (x ++ ['\n']) := by
  cases intent with
  | moveHome => exact moveHome_behind hu h
  | moveEnd => exact moveEnd_behind h u
  | insertChar c => rfl
  | moveLeft mods =>
    obtain ⟨ctrl, command⟩ := mods
    obtain rfl : ctrl = false := hi
    cases command with
    | true => exact moveHome_behind hu h
    | false => exact moveLeft_behind h u
  | moveRight mods =>
    obtain ⟨ctrl, command⟩ := mods
    obtain rfl : ctrl = false := hi
    cases command with
    | true => exact moveEnd_behind h u
    | false => exact moveRight_behind h u
  | deleteBackward mods =>
    obtain ⟨ctrl, command⟩ := mods
    obtain rfl : ctrl = false := hi
    exact deleteBackward_behind h u command
  | deleteForward mods =>
    obtain ⟨ctrl, command⟩ := mods
    obtain rfl : ctrl = false := hi
    exact deleteForward_behind h u command

end Atomic

/-! ## Insertions -/

/-- A character that is inserted at the end of a mention. -/
theorem Growth.insertGuarded_behind (h : EndBefore (units l) above)
    (hscan : scan config.marker (l ++ t) =
      above ++ (scan config.marker t).map (Span.shift (units l))) (u : Nat) (c : Char) :
    insertGuarded config (l ++ t) (units l + u) c =
      ⟨l ++ (insertGuarded config t u c).buffer, units l + (insertGuarded config t u c).cursor,
        (insertGuarded config t u c).applied⟩ := by
  simp only [insertGuarded, hscan, endingAt?_behind h, splice?_append_add]
  split
  · rfl
  cases Span.endingAt? (scan config.marker t) u with
  | none => rfl
  | some s =>
    cases splice? t u u [' ', c] with
    | none => rfl
    | some new => simp only [Option.map_some, Nat.add_assoc]

/-! ## Every edit -/

namespace Config

/-- **What becomes of an edit does not depend on the lines above**, unless the edit works by words.
With any text and a line feed before a buffer, the same edits are intercepted, a new cursor is as
much further to the right, and a new buffer has the same text before it. -/
theorem apply_ignores_lines_above (config : Config) (words : Word.Segmenter) (x y : Text)
    (cursor : Nat) (intent : Intent) (hv : config.validate = .ok ()) (hc : Addressable y cursor)
    (hi : intent.byWord = false) :
    config.apply (x ++ '\n' :: y) (units x + 1 + cursor) intent words =
      (config.apply y cursor intent words).behind (x ++ ['\n']) := by
  have hbuffer : x ++ '\n' :: y = x ++ ['\n'] ++ y := by simp
  have hunits : units x + 1 = units (x ++ ['\n']) := (units_append x ['\n']).symm
  obtain ⟨above, habove, hscan⟩ := scan_behind (marker_ne_newline hv) x y
  rw [hbuffer, hunits]
  have hintercept : Atomic.intercept config (x ++ ['\n'] ++ y) (units (x ++ ['\n']) + cursor)
      intent words = (Atomic.intercept config y cursor intent words).behind (x ++ ['\n']) := by
    rw [Host.intercept_of_addressable hc, Host.intercept_of_addressable (hc.append_left _), hscan]
    exact Atomic.outcome_behind hc hi habove
  cases intent with
  | insertChar c =>
    simp only [apply, Growth.insertGuarded_behind habove hscan]
    cases (Growth.insertGuarded config y cursor c).applied <;> rfl
  | moveLeft _ | moveRight _ | moveHome | moveEnd | deleteBackward _ | deleteForward _ =>
    exact hintercept

/-- Below a line with a mention, the mention at the start of the line is deleted as without it. -/
theorem apply_ignores_lines_above_deletion :
    ({} : Config).validate = .ok () ∧ Addressable "@bob @cy".toList 4 ∧
    ({} : Config).apply "@bob @cy".toList 4 (.deleteBackward {}) .standard =
      .replace " @cy".toList 0 ∧
    ({} : Config).apply "é @al\n@bob @cy".toList 10 (.deleteBackward {}) .standard =
      .replace "é @al\n @cy".toList 6 := by
  have hv : ({} : Config).validate = .ok () := by decide
  have hc : Addressable "@bob @cy".toList 4 := by decide
  have hout : ({} : Config).apply "@bob @cy".toList 4 (.deleteBackward {}) .standard =
      .replace " @cy".toList 0 := by decide
  have h := apply_ignores_lines_above {} .standard "é @al".toList "@bob @cy".toList 4
    (.deleteBackward {}) hv hc rfl
  rw [hout] at h
  exact ⟨hv, hc, hout, h⟩

end Config

end Mentions
