import Mathlib.Data.List.DropRight
import Mentions.Proofs.Scan.Position
import Mentions.Proofs.Word.Segmentation
import Mentions.Widget

/-!
# What a host does by itself

Where an edit is not intercepted the host handles it: `Host.landing` is where a movement takes the
cursor then, by characters, by words or to an end of the line, and `Host.removal` is the range that
a deletion removes, between the cursor and the landing of the movement in its direction. Words are
those of a segmenter, which may be any. Lines lie between line feeds, and the library looks for
their starts where the host does (`lineStart_eq`).

No interior of a mention holds an end of a line (`legal_lineStart`, `legal_lineEnd`). A step over a
character stays clear of the mentions unless one is next to the cursor or around it
(`legal_before_of_forall`, `legal_past_of_forall`), a jump over a word unless it lands in one
(`legal_previousStart?`, `legal_nextEnd?`); then that one reaches further than the cursor
(`mem_of_previousStart?`, `mem_of_nextEnd?`).
-/

namespace Mentions.Host

open Text

variable {m : Char} {l r t line : Text} {u : Nat} {p? : Option Text} {s : Span}
  {spans : List Span}

/-- The start of the line that the cursor is in: the place behind the last line feed before it. -/
def lineStart (buffer : Text) (cursor : Nat) : Nat :=
  match buffer.cut? cursor with
  | some (before, _) => units (before.rdropWhile (· ≠ '\n'))
  | none => cursor

/-- The end of the line that the cursor is in. -/
def lineEnd (buffer : Text) (cursor : Nat) : Nat :=
  match buffer.tail? cursor with
  | some after => cursor + units (after.takeWhile (· ≠ '\n'))
  | none => cursor

/-- Where the host itself takes the cursor. The line goes before the word. -/
def landing (buffer : Text) (cursor : Nat) (intent : Intent) (words : Word.Segmenter) : Nat :=
  match intent with
  | .moveLeft m =>
    if m.command then lineStart buffer cursor
    else if m.ctrl then (words.backward.previousStart? buffer cursor).getD cursor
    else (⟨buffer, cursor, none⟩ : Widget).before
  | .moveRight m =>
    if m.command then lineEnd buffer cursor
    else if m.ctrl then (words.forward.nextEnd? buffer cursor).getD cursor
    else (⟨buffer, cursor, none⟩ : Widget).past
  | .moveHome => lineStart buffer cursor
  | .moveEnd => lineEnd buffer cursor
  | .deleteBackward _ | .deleteForward _ | .insertChar _ => cursor

/-- The range that the host itself removes. -/
def removal (buffer : Text) (cursor : Nat) (intent : Intent) (words : Word.Segmenter) :
    Nat × Nat :=
  match intent with
  | .deleteBackward m => (landing buffer cursor (.moveLeft m) words, cursor)
  | .deleteForward m => (cursor, landing buffer cursor (.moveRight m) words)
  | _ => (cursor, cursor)

/-! ## Lines -/

/-- What the library takes for the start of a line is the start of the text or after a line feed,
and the line holds none. -/
theorem exists_lineStart (l r : Text) :
    ∃ l₀ line, l = l₀ ++ line ∧ Atomic.lineStart (l ++ r) (units l) = units l₀ ∧
      '\n' ∉ line ∧ (l₀ = [] ∨ ∃ l₁, l₀ = l₁ ++ ['\n']) := by
  obtain ⟨line, hl, hline⟩ := exists_takeThrough_append (fun c => decide (c = '\n')) l
  refine ⟨takeThrough (fun c => decide (c = '\n')) l, line, hl, ?_, fun h => ?_, ?_⟩
  · simp only [Atomic.lineStart, cut?_append]
  · simpa using hline _ h
  · by_cases hne : takeThrough (fun c => decide (c = '\n')) l = []
    · exact .inl hne
    · obtain ⟨l₁, c, hc, hp⟩ := exists_takeThrough_eq_concat hne
      refine .inr ⟨l₁, ?_⟩
      rw [hc, of_decide_eq_true hp]

/-- A line ends at the end of the text or before a line feed, and holds none. -/
theorem exists_lineEnd (l r : Text) :
    ∃ line r₀, r = line ++ r₀ ∧ lineEnd (l ++ r) (units l) = units l + units line ∧
      '\n' ∉ line ∧ (r₀ = [] ∨ ∃ r₁, r₀ = '\n' :: r₁) := by
  refine ⟨r.takeWhile (· ≠ '\n'), r.dropWhile (· ≠ '\n'),
    List.takeWhile_append_dropWhile.symm, ?_, fun h => ?_, ?_⟩
  · simp only [lineEnd, tail?_append]
  · simpa using List.mem_takeWhile_imp h
  · cases h : r.dropWhile (· ≠ '\n') with
    | nil => exact .inl rfl
    | cons c r₁ =>
      have hc := List.head?_dropWhile_not (· ≠ '\n') r
      rw [h] at hc
      exact .inr ⟨r₁, by simpa using hc⟩

/-- Behind the last line feed of a text nothing is dropped but what follows it. -/
theorem rdropWhile_append_of_notMem (h : '\n' ∉ line) (l : Text) :
    (l ++ line).rdropWhile (· ≠ '\n') = l.rdropWhile (· ≠ '\n') := by
  induction line using List.reverseRecOn with
  | nil => rw [List.append_nil]
  | append_singleton line c ih =>
    obtain ⟨hline, hc⟩ := not_or.1 (mt List.mem_append.2 h)
    have hne : c ≠ '\n' := fun heq => hc (List.mem_singleton.2 heq.symm)
    rw [← List.append_assoc, List.rdropWhile_concat, if_pos (decide_eq_true hne), ih hline]

/-- The library finds the start of the line that the host finds. -/
theorem lineStart_eq (hu : Addressable t u) : lineStart t u = Atomic.lineStart t u := by
  obtain ⟨l, r, rfl, rfl⟩ := addressable_iff.1 hu
  obtain ⟨l₀, line, rfl, hstart, hline, hl₀⟩ := exists_lineStart l r
  have hlast : l₀.rdropWhile (· ≠ '\n') = l₀ := by
    rcases hl₀ with rfl | ⟨l₁, rfl⟩
    · rfl
    · exact List.rdropWhile_concat_neg _ _ _ (by simp)
  rw [hstart, lineStart, cut?_append]
  exact congrArg units ((rdropWhile_append_of_notMem hline l₀).trans hlast)

/-- The start of a line is in no mention, and not behind the cursor. -/
theorem legal_lineStart (hm : '\n' ≠ m) (hu : Addressable t u) :
    Legal m t (lineStart t u) ∧ lineStart t u ≤ u := by
  rw [lineStart_eq hu]
  obtain ⟨l, r, rfl, rfl⟩ := addressable_iff.1 hu
  obtain ⟨l₀, line, rfl, hstart, -, hl₀⟩ := exists_lineStart l r
  rw [hstart]
  refine ⟨?_, by simp⟩
  rcases hl₀ with rfl | ⟨l₁, rfl⟩
  · exact legal_zero m _
  · have h := legal_after (l := l₁) (r := line ++ r) (by decide : isBodyChar '\n' = false) hm
    simpa using h

/-- The end of a line is in no mention, and not before the cursor. -/
theorem legal_lineEnd (hu : Addressable t u) : Legal m t (lineEnd t u) ∧ u ≤ lineEnd t u := by
  obtain ⟨l, r, rfl, rfl⟩ := addressable_iff.1 hu
  obtain ⟨line, r₀, rfl, hend, -, hr₀⟩ := exists_lineEnd l r
  rw [hend, ← units_append, ← List.append_assoc]
  refine ⟨?_, by simp⟩
  rcases hr₀ with rfl | ⟨r₁, rfl⟩
  · rw [List.append_nil]
    exact legal_units m _
  · exact legal_before (by decide : isBodyChar '\n' = false)

/-! ## Characters -/

/-- The character before the cursor starts where the text before it ends. -/
theorem before_append_cons (l r : Text) (c : Char) :
    Widget.before ⟨l ++ c :: r, units l + unitsOf c, p?⟩ = units l := by
  have hcut : (l ++ c :: r).cut? (units l + unitsOf c) = some (l ++ [c], r) := by
    refine cut?_eq_some_iff.2 ⟨by simp, by simp⟩
  simp only [Widget.before, hcut, List.getLast?_concat]
  omega

/-- No character stands before the start of a text. -/
theorem before_zero (t : Text) : Widget.before ⟨t, 0, p?⟩ = 0 := by
  simp [Widget.before, cut?, cutBy?]

/-- The character at the cursor ends where the text behind it starts. -/
theorem past_append_cons (l r : Text) (c : Char) :
    Widget.past ⟨l ++ c :: r, units l, p?⟩ = units l + unitsOf c := by
  simp [Widget.past]

/-- No character stands at the end of a text. -/
theorem past_units (t : Text) : Widget.past ⟨t, units t, p?⟩ = units t := by
  have hchar := charAt?_append t []
  rw [List.append_nil] at hchar
  simp [Widget.past, hchar]

/-- The character before the cursor starts at a legal position, if no mention ends at the cursor or
is around it. -/
theorem legal_before_of_forall (hu : Addressable t u)
    (h : ∀ s ∈ scan m t, s.start < u → s.stop < u) :
    Legal m t (Widget.before ⟨t, u, p?⟩) ∧ Widget.before ⟨t, u, p?⟩ ≤ u := by
  obtain ⟨l, r, rfl, rfl⟩ := addressable_iff.1 hu
  rcases List.eq_nil_or_concat l with rfl | ⟨l, c, rfl⟩
  · rw [units_nil, before_zero]
    exact ⟨legal_zero m _, Nat.le_refl 0⟩
  · have hs : units (l ++ [c]) = units l + unitsOf c := by simp
    rw [List.concat_eq_append, List.append_assoc, List.singleton_append, hs] at h ⊢
    rw [before_append_cons]
    exact ⟨legal_step_back h, Nat.le_add_right _ _⟩

/-- The character at the cursor ends at a legal position, if no mention starts at the cursor or is
around it. -/
theorem legal_past_of_forall (hu : Addressable t u)
    (h : ∀ s ∈ scan m t, s.start ≤ u → s.stop ≤ u) :
    Legal m t (Widget.past ⟨t, u, p?⟩) ∧ u ≤ Widget.past ⟨t, u, p?⟩ := by
  obtain ⟨l, r, rfl, rfl⟩ := addressable_iff.1 hu
  cases r with
  | nil =>
    rw [List.append_nil, past_units]
    exact ⟨legal_units m l, Nat.le_refl _⟩
  | cons c r =>
    rw [past_append_cons]
    exact ⟨legal_step_forward h, Nat.le_add_right _ _⟩

/-! ## Words -/

/-- A jump that lands in no mention ends at a legal position, and so does one that is not made. -/
theorem legal_target {target? : Option Nat} (hv : ∀ v, target? = some v → Addressable t v)
    (hu : Legal m t u) (h : target?.bind (Span.around? (scan m t)) = none) :
    Legal m t (target?.getD u) := by
  cases target? with
  | none => exact hu
  | some v => exact legal_of_around?_eq_none (hv v rfl) h

/-- A jump to the left that lands in no mention ends at a legal position. -/
theorem legal_previousStart? (words : Word.Segmentation) (hu : Legal m t u)
    (h : (words.previousStart? t u).bind (Span.around? (scan m t)) = none) :
    Legal m t ((words.previousStart? t u).getD u) :=
  legal_target (fun _ hv => (words.previousStart?_spec hu.1 hv).1) hu h

/-- A jump to the right that lands in no mention ends at a legal position. -/
theorem legal_nextEnd? (words : Word.Segmentation) (hu : Legal m t u)
    (h : (words.nextEnd? t u).bind (Span.around? (scan m t)) = none) :
    Legal m t ((words.nextEnd? t u).getD u) :=
  legal_target (fun _ hv => (words.nextEnd?_spec hu.1 hv).1) hu h

/-- The span that a jump to the left lands in starts before the cursor. -/
theorem mem_of_previousStart? (words : Word.Segmentation) (hu : Addressable t u)
    (h : (words.previousStart? t u).bind (Span.around? spans) = some s) :
    s ∈ spans ∧ s.start < u := by
  obtain ⟨v, hv, hs⟩ := Option.bind_eq_some_iff.1 h
  obtain ⟨hmem, hstart, -⟩ := Span.mem_of_around?_eq_some hs
  exact ⟨hmem, Nat.lt_trans hstart (words.previousStart?_spec hu hv).2⟩

/-- The span that a jump to the right lands in ends behind the cursor. -/
theorem mem_of_nextEnd? (words : Word.Segmentation) (hu : Addressable t u)
    (h : (words.nextEnd? t u).bind (Span.around? spans) = some s) :
    s ∈ spans ∧ u < s.stop := by
  obtain ⟨v, hv, hs⟩ := Option.bind_eq_some_iff.1 h
  obtain ⟨hmem, -, hstop⟩ := Span.mem_of_around?_eq_some hs
  exact ⟨hmem, Nat.lt_trans (words.nextEnd?_spec hu hv).2 hstop⟩

/-! ## What is left to the host -/

/-- At a place of the buffer, the outcome of an edit is decided by the mentions of the buffer. -/
theorem intercept_of_addressable {config : Config} {intent : Intent} {words : Word.Segmenter}
    (hu : Addressable t u) :
    Atomic.intercept config t u intent words =
      Atomic.outcome config t (scan config.marker t) u intent words := by
  obtain ⟨l, r, rfl, rfl⟩ := addressable_iff.1 hu
  simp only [Atomic.intercept, cut?_append]

end Mentions.Host
