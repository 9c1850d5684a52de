import Mentions.Editing
import Mentions.Proofs.Checked.Boundaries
import Mentions.Proofs.Checked.Scan
import Mentions.Proofs.Selection

/-!
# Edits, checked

What becomes of a movement, a deletion or an insertion, and where a click lands, with each sum,
difference, look-up and cut of it checked. A movement or deletion is only looked at if the cursor
addresses a place of the buffer. From then on each look-up of the cursor, and each replacement, is
one that must not fail: in place of an outcome there would be a fault.

A replacement is made between two places in order, which are the cursor or ends of mentions
(`remove_eq`, `remove_span`); differences are taken of a position and the ends of a mention around
it, or of a position that is known not to be zero. No assumption is made on the marker or on the
cursor. Only an insertion makes the buffer longer, so that the new buffer has to fit as well
(`insertGuarded_eq`).
-/

namespace Mentions

open Text

variable {m : Char} {t : Text} {u v : Nat} {s : Span} {spans : List Span}
  {words : Word.Segmenter}

/-! ## Rounding down -/

/-- An offset that addresses no place is rounded down like the one before it. -/
theorem Text.floor_succ (h : ¬Addressable t (u + 1)) : floor t (u + 1) = floor t u := by
  have hplace := addressable_floor t (u + 1)
  have hne : floor t (u + 1) ≠ u + 1 := by
    intro heq
    rw [heq] at hplace
    exact h hplace
  have hle := floor_le t (u + 1)
  refine Nat.le_antisymm (hplace.le_floor (by omega)) ?_
  exact (addressable_floor t u).le_floor (Nat.le_succ_of_le (floor_le t u))

/-- Nothing becomes of an edit in a buffer without mentions. -/
theorem Atomic.outcome_nil (config : Config) (buffer : Text) (cursor : Nat) (intent : Intent)
    (words : Word.Segmenter) : outcome config buffer [] cursor intent words = .pass := by
  have hnone (x : Option Nat) : x.bind (Span.around? []) = none := by cases x <;> rfl
  cases intent with
  | moveLeft mods =>
    simp [outcome, moveHome, wordLeft, moveLeft, ahead?, Span.around?, hnone]
  | moveRight mods =>
    simp [outcome, moveEnd, wordRight, moveRight, Span.around?, hnone]
  | moveHome => rfl
  | moveEnd => rfl
  | deleteBackward mods =>
    simp [outcome, deleteBackward, isSeparating, Span.around?, Span.endingAt?, Span.startingAt?,
      hnone]
  | deleteForward mods =>
    simp [outcome, deleteForward, Span.around?, Span.startingAt?, hnone]
  | insertChar c => rfl

namespace Checked

/-! ## Movements -/

/-- One character to the right. -/
def moveRight (buffer : Text) (spans : List Span) (cursor : Nat) : Checked Outcome := do
  let landing ←
    match ← charAt buffer cursor with
    | some c => add cursor (unitsOf c)
    | none => pure cursor
  return match spans.find? fun s => s.start ≤ landing && cursor < s.stop with
    | some s => .moveTo s.stop
    | none => .pass

/-- To the start of the line. -/
def moveHome (buffer : Text) (spans : List Span) (cursor : Nat) : Checked Outcome := do
  let origin ← lineStart buffer cursor
  return match (spans.filter fun s => origin ≤ s.start && s.stop < cursor).getLast? with
    | some s => .moveTo s.stop
    | none =>
      match Span.around? spans cursor with
      | some s => .moveTo s.start
      | none => .pass

/-- One word to the left. -/
def wordLeft (buffer : Text) (spans : List Span) (cursor : Nat) (words : Word.Segmenter) :
    Checked Outcome :=
  match Atomic.ahead? spans cursor with
  | some s => return .moveTo s.start
  | none => do
    return match (← previousStart words.backward buffer cursor).bind (Span.around? spans) with
      | some s => .moveTo s.start
      | none => .pass

/-- One word to the right. -/
def wordRight (buffer : Text) (spans : List Span) (cursor : Nat) (words : Word.Segmenter) :
    Checked Outcome :=
  match spans.find? fun s => s.start ≤ cursor && cursor < s.stop with
  | some s => return .moveTo s.stop
  | none => do
    return match (← nextEnd words.forward buffer cursor).bind (Span.around? spans) with
      | some s => .moveTo s.stop
      | none => .pass

theorem moveRight_eq (h : Fits t) (hu : Addressable t u) (spans : List Span) :
    moveRight t spans u = pure (Atomic.moveRight t spans u) := by
  obtain ⟨l, r, rfl, rfl⟩ := addressable_iff.1 hu
  rw [moveRight, Atomic.moveRight, charAt_eq h, pure_bind, charAt?_append]
  cases r with
  | nil => rfl
  | cons c r =>
    have hunits := h.units_le
    simp only [units_append, units_cons] at hunits
    simp only [List.head?_cons]
    rw [add_eq (by omega), pure_bind]
    rfl

theorem moveHome_eq (h : Fits t) (hu : Addressable t u) (spans : List Span) :
    moveHome t spans u = pure (Atomic.moveHome t spans u) := by
  rw [moveHome, Atomic.moveHome, lineStart_eq h hu]
  rfl

theorem wordLeft_eq (h : Fits t) (hu : Addressable t u) (spans : List Span) :
    wordLeft t spans u words = pure (Atomic.wordLeft t spans u words) := by
  rw [wordLeft, Atomic.wordLeft, previousStart_eq h hu, pure_bind]
  cases Atomic.ahead? spans u with
  | some s => rfl
  | none => rfl

theorem wordRight_eq (h : Fits t) (hu : Addressable t u) (spans : List Span) :
    wordRight t spans u words = pure (Atomic.wordRight t spans u words) := by
  rw [wordRight, Atomic.wordRight, nextEnd_eq h hu, pure_bind]
  cases spans.find? fun s => s.start ≤ u && u < s.stop with
  | some s => rfl
  | none => rfl

/-! ## Deletions -/

/-- Removes the text between two offsets that are known to be places in order. -/
def remove (buffer : Text) (start stop : Nat) : Checked Outcome := do
  let text ← splice buffer start stop [] >>= fun text => require text
  return .replace text start

/-- Whether the character before the cursor is a space that keeps a mention apart from visible
text. -/
def isSeparating (buffer : Text) (spans : List Span) (cursor : Nat) : Checked Bool := do
  if cursor = 0 then return false
  let before ← sub cursor 1
  if (Span.endingAt? spans before).isNone then return false
  if (← charAt buffer before) ≠ some ' ' then return false
  let rest ← tail buffer cursor
  return (rest.bind fun t => t.find? fun c => !isZeroWidth c).any fun c => !isBlankChar c

/-- Deletion of a character, a word or the line before the cursor. -/
def deleteBackward (config : Config) (buffer : Text) (spans : List Span) (cursor : Nat)
    (m : Modifiers) (words : Word.Segmenter) : Checked Outcome :=
  if m.command then
    return match Span.around? spans cursor with
      | some s => .moveTo s.start
      | none => .pass
  else
    match Span.endingAt? spans cursor with
    | some s => remove buffer s.start s.stop
    | none =>
      if m.ctrl then
        match Span.around? spans cursor with
        | some s => return .moveTo s.start
        | none => do
          match (← previousStart words.backward buffer cursor).bind (Span.around? spans) with
          | some s => remove buffer s.start cursor
          | none => return .pass
      else
        match Span.startingAt? spans cursor with
        | some s => remove buffer s.start s.stop
        | none =>
          match Span.around? spans cursor with
          | some s => return .moveTo s.start
          | none => do
            let kept ←
              if config.guardTrailingSpace then isSeparating buffer spans cursor else pure false
            return if kept then .suppress else .pass

/-- Deletion of a character, a word or the line after the cursor. -/
def deleteForward (buffer : Text) (spans : List Span) (cursor : Nat) (m : Modifiers)
    (words : Word.Segmenter) : Checked Outcome :=
  match Span.around? spans cursor with
  | some s => return .moveTo s.stop
  | none =>
    if m.command then return .pass
    else
      match Span.startingAt? spans cursor with
      | some s => remove buffer s.start s.stop
      | none =>
        if m.ctrl then do
          match (← nextEnd words.forward buffer cursor).bind (Span.around? spans) with
          | some s => remove buffer cursor s.stop
          | none => return .pass
        else return .pass

/-- The text between two places in order can be removed. -/
theorem remove_eq (h : Fits t) (hu : Addressable t u) (hv : Addressable t v) (huv : u ≤ v) :
    remove t u v = pure (Atomic.remove t u v) := by
  obtain ⟨l, x, r, rfl, rfl, rfl⟩ := exists_append_append hu hv huv
  have hnew : Fits (l ++ [] ++ r) := by
    unfold Fits at h ⊢
    simp only [bytes_append, bytes_nil] at h ⊢
    omega
  rw [remove, splice_append h hnew, pure_bind, require_some, pure_bind, Atomic.remove,
    splice?_append]

/-- A mention can be removed. -/
theorem remove_span (h : Fits t) (hs : s ∈ Mentions.scan m t) :
    remove t s.start s.stop = pure (Atomic.remove t s.start s.stop) :=
  remove_eq h (s.addressable_start hs) (s.addressable_stop hs) (Nat.le_of_lt (s.start_lt_stop hs))

theorem isSeparating_eq (h : Fits t) (spans : List Span) (u : Nat) :
    isSeparating t spans u = pure (Atomic.isSeparating t spans u) := by
  rw [isSeparating, Atomic.isSeparating]
  cases u with
  | zero => rfl
  | succ u =>
    rw [if_neg (Nat.succ_ne_zero u), sub_eq (Nat.le_add_left 1 u), pure_bind, charAt_eq h,
      tail_eq h, Nat.add_sub_cancel]
    cases Span.endingAt? spans u with
    | none => rfl
    | some s =>
      simp only [Option.isNone_some, Option.isSome_some, pure_bind, Nat.zero_lt_succ]
      by_cases hc : t.charAt? u = some ' '
      · simp [hc]
      · simp [hc]

theorem deleteBackward_eq (h : Fits t) (hu : Addressable t u) (config : Config) (m : Char)
    (mods : Modifiers) :
    deleteBackward config t (Mentions.scan m t) u mods words =
      pure (Atomic.deleteBackward config t (Mentions.scan m t) u mods words) := by
  rw [deleteBackward, Atomic.deleteBackward, previousStart_eq h hu, isSeparating_eq h, pure_bind]
  by_cases hline : mods.command = true
  · rw [if_pos hline]
    exact congrArg pure (if_pos hline).symm
  rw [if_neg hline, if_neg hline]
  cases hend : Span.endingAt? (Mentions.scan m t) u with
  | some s => exact remove_span h (Span.mem_of_endingAt?_eq_some hend).1
  | none =>
    by_cases hword : mods.ctrl = true
    · simp only [if_pos hword]
      cases Span.around? (Mentions.scan m t) u with
      | some s => rfl
      | none =>
        cases hs : (words.backward.previousStart? t u).bind (Span.around? (Mentions.scan m t)) with
        | some s =>
          obtain ⟨hmem, hlt⟩ := Host.mem_of_previousStart? words.backward hu hs
          exact remove_eq h (s.addressable_start hmem) hu (Nat.le_of_lt hlt)
        | none => rfl
    · simp only [if_neg hword]
      cases hstart : Span.startingAt? (Mentions.scan m t) u with
      | some s => exact remove_span h (Span.mem_of_startingAt?_eq_some hstart).1
      | none =>
        cases Span.around? (Mentions.scan m t) u with
        | some s => rfl
        | none =>
          cases config.guardTrailingSpace with
          | true => cases Atomic.isSeparating t (Mentions.scan m t) u <;> rfl
          | false => rfl

theorem deleteForward_eq (h : Fits t) (hu : Addressable t u) (m : Char) (mods : Modifiers) :
    deleteForward t (Mentions.scan m t) u mods words =
      pure (Atomic.deleteForward t (Mentions.scan m t) u mods words) := by
  rw [deleteForward, Atomic.deleteForward, nextEnd_eq h hu, pure_bind]
  cases Span.around? (Mentions.scan m t) u with
  | some s => rfl
  | none =>
    by_cases hline : mods.command = true
    · simp only [if_pos hline]
    simp only [if_neg hline]
    cases hstart : Span.startingAt? (Mentions.scan m t) u with
    | some s => exact remove_span h (Span.mem_of_startingAt?_eq_some hstart).1
    | none =>
      by_cases hword : mods.ctrl = true
      · simp only [if_pos hword]
        cases hs : (words.forward.nextEnd? t u).bind (Span.around? (Mentions.scan m t)) with
        | some s =>
          obtain ⟨hmem, hlt⟩ := Host.mem_of_nextEnd? words.forward hu hs
          exact remove_eq h hu (s.addressable_stop hmem) (Nat.le_of_lt hlt)
        | none => rfl
      · simp only [if_neg hword]

/-! ## Edits -/

/-- What becomes of an edit in a buffer with the given mentions. -/
def outcome (config : Config) (buffer : Text) (spans : List Span) (cursor : Nat)
    (intent : Intent) (words : Word.Segmenter) : Checked Outcome :=
  match intent with
  | .moveLeft m =>
    if m.command then moveHome buffer spans cursor
    else if m.ctrl then wordLeft buffer spans cursor words
    else return Atomic.moveLeft spans cursor
  | .moveRight m =>
    if m.command then return Atomic.moveEnd spans cursor
    else if m.ctrl then wordRight buffer spans cursor words
    else moveRight buffer spans cursor
  | .moveHome => moveHome buffer spans cursor
  | .moveEnd => return Atomic.moveEnd spans cursor
  | .deleteBackward m => deleteBackward config buffer spans cursor m words
  | .deleteForward m => deleteForward buffer spans cursor m words
  | .insertChar _ => return .pass

/-- What becomes of a movement or deletion at a cursor. -/
def intercept (config : Config) (buffer : Text) (cursor : Nat) (intent : Intent)
    (words : Word.Segmenter) : Checked Outcome := do
  if (← byteIndex buffer cursor).isNone then return .pass
  let spans ← scan config.marker buffer
  if spans.isEmpty then return .pass
  outcome config buffer spans cursor intent words

/-- Inserts a character after a mention that ends at the cursor, with a space before it. -/
def insertGuarded (config : Config) (buffer : Text) (cursor : Nat) (c : Char) : Checked Edit := do
  let untouched : Edit := ⟨buffer, cursor, false⟩
  if config.guardBodyOnly && !isBodyChar c then return untouched
  let spans ← scan config.marker buffer
  if (Span.endingAt? spans cursor).isNone then return untouched
  let _capacity ← add 1 c.utf8Size
  let text ← splice buffer cursor cursor [' ', c] >>= fun text => require text
  return ⟨text, ← add (← add cursor 1) (unitsOf c), true⟩

/-- What becomes of an edit at a cursor. -/
def apply (config : Config) (buffer : Text) (cursor : Nat) (intent : Intent)
    (words : Word.Segmenter) : Checked Outcome :=
  match intent with
  | .insertChar c => do
    let edit ← insertGuarded config buffer cursor c
    return if edit.applied then .replace edit.buffer edit.cursor else .pass
  | intent => intercept config buffer cursor intent words

theorem outcome_eq (h : Fits t) (hu : Addressable t u) (config : Config) (m : Char)
    (intent : Intent) :
    outcome config t (Mentions.scan m t) u intent words =
      pure (Atomic.outcome config t (Mentions.scan m t) u intent words) := by
  cases intent with
  | moveLeft mods =>
    rw [outcome, Atomic.outcome, moveHome_eq h hu, wordLeft_eq h hu]
    cases mods.command <;> cases mods.ctrl <;> rfl
  | moveRight mods =>
    rw [outcome, Atomic.outcome, wordRight_eq h hu, moveRight_eq h hu]
    cases mods.command <;> cases mods.ctrl <;> rfl
  | moveHome => exact moveHome_eq h hu _
  | moveEnd => rfl
  | deleteBackward mods => exact deleteBackward_eq h hu config m mods
  | deleteForward mods => exact deleteForward_eq h hu m mods
  | insertChar c => rfl

/-- Deciding on a movement or deletion goes wrong for no cursor. -/
theorem intercept_eq (h : Fits t) (config : Config) (u : Nat) (intent : Intent) :
    intercept config t u intent words = pure (Atomic.intercept config t u intent words) := by
  rw [intercept, Atomic.intercept, byteIndex_eq h, pure_bind]
  rcases exists_append_or_cut?_eq_none t u with ⟨l, r, rfl, rfl⟩ | hnone
  · rw [byteIndex?_append, cut?_append, Option.isNone_some, if_neg Bool.false_ne_true, scan_eq h,
      pure_bind]
    split
    · next hempty =>
      rw [List.isEmpty_iff.1 hempty, Atomic.outcome_nil]
    · exact outcome_eq h (addressable_append l r) config _ intent
  · rw [byteIndex?, hnone]
    rfl

/-- A guarded insertion goes wrong only if the new buffer is too long. -/
theorem insertGuarded_eq (h : Fits t) (config : Config) (u : Nat) (c : Char)
    (hnew : Fits (Growth.insertGuarded config t u c).buffer) :
    insertGuarded config t u c = pure (Growth.insertGuarded config t u c) := by
  rw [Growth.insertGuarded] at hnew ⊢
  rw [insertGuarded]
  split
  · rfl
  next hguard =>
  rw [if_neg hguard] at hnew
  rw [scan_eq h, pure_bind]
  cases hs : Span.endingAt? (Mentions.scan config.marker t) u with
  | none => rfl
  | some s =>
    rw [hs] at hnew
    obtain ⟨hmem, hstop⟩ := Span.mem_of_endingAt?_eq_some hs
    obtain ⟨l, r, rfl, rfl⟩ := addressable_iff.1 (hstop ▸ s.addressable_stop hmem)
    simp only [splice?_insert] at hnew ⊢
    have hinsert : Fits [' ', c] := hnew.left.right
    have hcapacity : 1 + c.utf8Size ≤ maxOffset := hinsert
    -- the new cursor is behind the character, in the new buffer
    have hcursor : units l + 1 + unitsOf c ≤ maxOffset := by
      have hunits := hnew.units_le
      simp only [units_append, units_cons, units_nil] at hunits
      have : unitsOf ' ' = 1 := rfl
      omega
    rw [Option.isNone_some, if_neg Bool.false_ne_true, add_eq hcapacity, pure_bind,
      splice_insert h hnew, pure_bind, require_some, pure_bind, add_eq (by omega), pure_bind,
      add_eq hcursor, pure_bind]

/-- An edit goes wrong only if the new buffer is too long. -/
theorem apply_eq (h : Fits t) (config : Config) (u : Nat) (intent : Intent)
    (hnew : ∀ new, (config.apply t u intent words).buffer? = some new → Fits new) :
    apply config t u intent words = pure (config.apply t u intent words) := by
  cases intent with
  | insertChar c =>
    have hfits : Fits (Growth.insertGuarded config t u c).buffer := by
      rcases Growth.insertGuarded_placed config t u c with hsame | ⟨new, v, hinsert, -⟩
      · rw [hsame]
        exact h
      · rw [hinsert]
        refine hnew new ?_
        rw [Config.apply, hinsert]
        rfl
    rw [apply, insertGuarded_eq h config u c hfits, pure_bind]
    rfl
  | moveLeft mods => exact intercept_eq h config u _
  | moveRight mods => exact intercept_eq h config u _
  | moveHome => exact intercept_eq h config u _
  | moveEnd => exact intercept_eq h config u _
  | deleteBackward mods => exact intercept_eq h config u _
  | deleteForward mods => exact intercept_eq h config u _

/-! ## Clicks -/

/-- Steps back from an offset to one that addresses a place. -/
def stepBack (t : Text) : Nat → Checked Nat
  | 0 => return 0
  | u + 1 => do
    if (← byteIndex t (u + 1)).isSome then return u + 1
    stepBack t u

/-- The greatest offset not above the given one that addresses a place. -/
def floor (t : Text) (u : Nat) : Checked Nat := do
  let length ← countUnits t
  stepBack t (min u length)

/-- The end of a span that is nearer to a position between the two. -/
def nearerEnd (s : Span) (pos : Nat) : Checked Nat := do
  let before ← sub pos s.start
  let after ← sub s.stop pos
  return if before < after then s.start else s.stop

/-- The cursor that a click ends up with. -/
def clamp (config : Config) (buffer : Text) (cursor : Nat) : Checked Nat := do
  let pos ← floor buffer cursor
  let spans ← scan config.marker buffer
  match Span.around? spans pos with
  | some s => nearerEnd s pos
  | none => return pos

theorem stepBack_eq (h : Fits t) (u : Nat) : stepBack t u = pure (t.floor u) := by
  induction u with
  | zero =>
    rw [floor_zero]
    rfl
  | succ u ih =>
    rw [stepBack, byteIndex_eq h, pure_bind]
    rcases exists_append_or_cut?_eq_none t (u + 1) with ⟨l, r, rfl, hl⟩ | hnone
    · rw [← hl, byteIndex?_append, Option.isSome_some, if_pos rfl,
        (addressable_append l r).floor_eq]
    · have hplace : ¬Addressable t (u + 1) := by
        rw [Addressable, hnone]
        exact Bool.false_ne_true
      rw [byteIndex?, hnone, floor_succ hplace]
      exact ih

theorem floor_eq (h : Fits t) (u : Nat) : floor t u = pure (t.floor u) := by
  rw [floor, countUnits_eq h.units_le, pure_bind, stepBack_eq h, floor_min]

/-- The nearer end of a span is found for a position that is not outside it. -/
theorem nearerEnd_eq {pos : Nat} (hstart : s.start ≤ pos) (hstop : pos ≤ s.stop) :
    nearerEnd s pos = pure (s.nearerEnd pos) := by
  rw [nearerEnd, sub_eq hstart, pure_bind, sub_eq hstop, pure_bind]
  rfl

/-- A click goes wrong nowhere. -/
theorem clamp_eq (h : Fits t) (config : Config) (u : Nat) :
    clamp config t u = pure (config.clamp t u) := by
  rw [clamp, Config.clamp, floor_eq h, pure_bind, scan_eq h, pure_bind]
  cases hs : Span.around? (Mentions.scan config.marker t) (t.floor u) with
  | none => rfl
  | some s =>
    obtain ⟨-, hstart, hstop⟩ := Span.mem_of_around?_eq_some hs
    exact nearerEnd_eq (Nat.le_of_lt hstart) (Nat.le_of_lt hstop)

end Checked

end Mentions
