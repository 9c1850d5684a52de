import Mathlib.Logic.Relation
import Mentions.Proofs.Atomic.Movement

/-!
# The cursor of a widget

Whatever a user does, the cursor addresses a place of the buffer: it is not beyond the end and not
between the halves of a character. No configuration is refused here, so the marker may be any
character.

What the library decides comes in four kinds (`Outcome.Placed`): nothing, or a cursor that is the
end of a mention, or a new buffer with a cursor right before or behind the text that has been
replaced.
The host's own edits put the cursor behind the text that they write, and a click and a change of the
whole buffer send it through `Config.clamp`. So each step leaves the cursor at a place
(`Widget.Valid.step`), whichever buffer a repair compares with, and so does every run of steps
(`cursor_addresses_place`).
-/

namespace Mentions

open Text

variable {m : Char} {t buffer : Text} {u a b cursor : Nat} {s : Span} {config : Config}
  {side : Nat → Prop} {host : Nat} {o : Outcome} {w w' : Widget} {words : Word.Segmenter}

/-! ## Outcomes -/

/-- An outcome for a buffer whose cursor, if it has one, addresses a place of the buffer that it
leaves. -/
inductive Outcome.Placed (buffer : Text) : Outcome → Prop
  | pass : Placed buffer .pass
  | suppress : Placed buffer .suppress
  | moveTo {c : Nat} (hc : Addressable buffer c) : Placed buffer (.moveTo c)
  | replace {new : Text} {c : Nat} (hc : Addressable new c) : Placed buffer (.replace new c)

/-- The cursor of such an outcome. -/
theorem Outcome.Placed.addressable (h : o.Placed buffer) {c : Nat} (hc : o.cursor? = some c) :
    Addressable (o.buffer?.getD buffer) c := by
  cases h with
  | pass | suppress => cases hc
  | moveTo h | replace h =>
    cases hc
    exact h

namespace Atomic

theorem placed_start (hs : s ∈ scan m t) : (Outcome.moveTo s.start).Placed t :=
  .moveTo (s.addressable_start hs)

theorem placed_stop (hs : s ∈ scan m t) : (Outcome.moveTo s.stop).Placed t :=
  .moveTo (s.addressable_stop hs)

/-- A movement keeps the buffer, and goes to a place of it. -/
theorem Moves.placed (h : Moves m t side host o) : o.Placed t := by
  cases h with
  | jumps hc _ => exact .moveTo hc.1
  | passes _ => exact .pass

theorem moveHome_placed (t : Text) (u : Nat) : (moveHome t (scan m t) u).Placed t := by
  rw [moveHome]
  split
  · next s h => exact placed_stop (List.mem_filter.1 (List.mem_of_getLast? h)).1
  split
  · next s h => exact placed_start (Span.mem_of_around?_eq_some h).1
  · exact .pass

theorem wordLeft_placed (t : Text) (u : Nat) (words : Word.Segmenter) :
    (wordLeft t (scan m t) u words).Placed t := by
  rw [wordLeft]
  split
  · next s h => exact placed_start (mem_of_ahead?_eq_some h).1
  split
  · next s h =>
    -- wherever the jump lands, it is the mention around it that is left
    obtain ⟨v, -, hs⟩ := Option.bind_eq_some_iff.1 h
    exact placed_start (Span.mem_of_around?_eq_some hs).1
  · exact .pass

theorem wordRight_placed (t : Text) (u : Nat) (words : Word.Segmenter) :
    (wordRight t (scan m t) u words).Placed t := by
  rw [wordRight]
  split
  · next s h => exact placed_stop (List.mem_of_find?_eq_some h)
  split
  · next s h =>
    obtain ⟨v, -, hs⟩ := Option.bind_eq_some_iff.1 h
    exact placed_stop (Span.mem_of_around?_eq_some hs).1
  · exact .pass

/-- A removal leaves the cursor where the text that has been removed has started. -/
theorem remove_placed (t : Text) (a b : Nat) : (remove t a b).Placed t := by
  rw [remove]
  split
  · next new h =>
    obtain ⟨l, x, r, -, rfl, -, rfl⟩ := splice?_eq_some_iff.1 h
    rw [List.append_nil]
    exact .replace (addressable_append l r)
  · exact .pass

theorem deleteBackward_placed (config : Config) (t : Text) (u : Nat) (mods : Modifiers)
    (words : Word.Segmenter) : (deleteBackward config t (scan m t) u mods words).Placed t := by
  have haround : ∀ s, Span.around? (scan m t) u = some s → (Outcome.moveTo s.start).Placed t :=
    fun s h => placed_start (Span.mem_of_around?_eq_some h).1
  rw [deleteBackward]
  split
  · split
    · next s h => exact haround s h
    · exact .pass
  split
  · exact remove_placed t _ _
  split
  · split
    · next s h => exact haround s h
    split
    · exact remove_placed t _ _
    · exact .pass
  split
  · exact remove_placed t _ _
  split
  · next s h => exact haround s h
  split
  · exact .suppress
  · exact .pass

theorem deleteForward_placed (t : Text) (u : Nat) (mods : Modifiers) (words : Word.Segmenter) :
    (deleteForward t (scan m t) u mods words).Placed t := by
  rw [deleteForward]
  split
  · next s h => exact placed_stop (Span.mem_of_around?_eq_some h).1
  split
  · exact .pass
  split
  · exact remove_placed t _ _
  split
  · split
    · exact remove_placed t _ _
    · exact .pass
  · exact .pass

/-- What becomes of a movement or deletion, at whatever cursor. -/
theorem intercept_placed (config : Config) (t : Text) (u : Nat) (intent : Intent)
    (words : Word.Segmenter) : (intercept config t u intent words).Placed t := by
  by_cases hu : Addressable t u
  · rw [Host.intercept_of_addressable hu]
    cases intent with
    | moveLeft mods =>
      rw [outcome]
      split
      · exact moveHome_placed t u
      split
      · exact wordLeft_placed t u words
      · exact (moveLeft_moves hu).placed
    | moveRight mods =>
      rw [outcome]
      split
      · exact (moveEnd_moves hu).placed
      split
      · exact wordRight_placed t u words
      · exact (moveRight_moves hu).placed
    | moveHome => exact moveHome_placed t u
    | moveEnd => exact (moveEnd_moves hu).placed
    | deleteBackward mods => exact deleteBackward_placed config t u mods words
    | deleteForward mods => exact deleteForward_placed t u mods words
    | insertChar c => exact .pass
  · have hnone : t.cut? u = none := by
      simpa [Addressable] using hu
    rw [intercept, hnone]
    exact .pass

end Atomic

namespace Growth

/-- A guarded insertion is not made, or it leaves the cursor behind the character. -/
theorem insertGuarded_placed (config : Config) (t : Text) (u : Nat) (c : Char) :
    insertGuarded config t u c = ⟨t, u, false⟩ ∨
      ∃ new v, insertGuarded config t u c = ⟨new, v, true⟩ ∧ Addressable new v := by
  rw [insertGuarded]
  split
  · exact .inl rfl
  split
  · exact .inl rfl
  split
  · next new h =>
    obtain ⟨l, x, r, -, rfl, -, rfl⟩ := splice?_eq_some_iff.1 h
    refine .inr ⟨_, _, rfl, ?_⟩
    have hlen : units l + 1 + unitsOf c = units (l ++ [' ', c]) := by
      rw [units_append, Nat.add_assoc]
      rfl
    rw [hlen]
    exact addressable_append _ r
  · exact .inl rfl

end Growth

/-- What becomes of an edit, at whatever cursor. -/
theorem Config.apply_placed (config : Config) (t : Text) (u : Nat) (intent : Intent)
    (words : Word.Segmenter) : (config.apply t u intent words).Placed t := by
  cases intent with
  | insertChar c =>
    rw [apply]
    rcases Growth.insertGuarded_placed config t u c with h | ⟨new, v, h, hv⟩
    · rw [h]
      exact .pass
    · rw [h]
      exact .replace hv
  | moveLeft _ | moveRight _ | moveHome | moveEnd | deleteBackward _ | deleteForward _ =>
    exact Atomic.intercept_placed config t u _ words

/-! ## Widgets -/

namespace Widget

/-- The cursor addresses a place of the buffer. -/
def Valid (w : Widget) : Prop := Addressable w.buffer w.cursor

/-- An outcome is taken over. -/
theorem Valid.take (h : w.Valid) (ho : o.Placed w.buffer) : (w.take o).Valid := by
  cases ho with
  | pass | suppress => exact h
  | moveTo hc | replace hc => exact hc

/-- A replacement leaves the cursor behind the new text. -/
theorem Valid.edit (h : w.Valid) (a b : Nat) (new : Text) : (w.edit a b new).Valid := by
  rw [Widget.edit]
  split
  · next text hnew =>
    obtain ⟨l, x, r, -, rfl, -, rfl⟩ := splice?_eq_some_iff.1 hnew
    show Addressable (l ++ new ++ r) (units l + units new)
    rw [← units_append]
    exact addressable_append _ r
  · exact h

/-- The character before the cursor starts at a place. -/
theorem Valid.before (h : w.Valid) : Addressable w.buffer w.before := by
  obtain ⟨t, u, p?⟩ := w
  obtain ⟨l, r, rfl, rfl⟩ := addressable_iff.1 h
  rcases List.eq_nil_or_concat l with rfl | ⟨l, c, rfl⟩
  · rw [units_nil, Host.before_zero]
    exact addressable_zero _
  · have hs : units (l ++ [c]) = units l + unitsOf c := by simp
    rw [List.concat_eq_append, List.append_assoc, List.singleton_append, hs,
      Host.before_append_cons]
    exact addressable_append l (c :: r)

/-- The character at the cursor ends at a place. -/
theorem Valid.past (h : w.Valid) : Addressable w.buffer w.past := by
  obtain ⟨t, u, p?⟩ := w
  obtain ⟨l, r, rfl, rfl⟩ := addressable_iff.1 h
  cases r with
  | nil =>
    rw [List.append_nil, Host.past_units]
    exact addressable_units l
  | cons c r =>
    rw [Host.past_append_cons]
    simpa using addressable_append (l ++ [c]) r

/-- The host handles an edit by itself. -/
theorem Valid.defaultAction (h : w.Valid) (intent : Intent) : (w.defaultAction intent).Valid := by
  cases intent with
  | moveLeft _ => exact h.before
  | moveRight _ => exact h.past
  | moveHome => exact addressable_zero w.buffer
  | moveEnd => exact addressable_units w.buffer
  | deleteBackward _ | deleteForward _ | insertChar _ => exact h.edit _ _ _

/-- A key is pressed. -/
theorem Valid.press (h : w.Valid) (config : Config) (e : KeyEvent) (words : Word.Segmenter) :
    (w.press config e words).Valid := by
  rw [Widget.press, Config.handleKey]
  cases e.intent? with
  | none => exact h
  | some intent =>
    show (if (config.apply w.buffer w.cursor intent words).intercepted then _ else _ : Widget).Valid
    split
    · exact h.take (config.apply_placed _ _ _ _)
    · exact h.defaultAction intent

/-- Another buffer is put in place. -/
theorem valid_replace (config : Config) (w : Widget) (t : Text) : (w.replace config t).Valid :=
  (config.legal_clamp t w.cursor).1

/-- A step keeps the cursor at a place, unless it is one that puts a cursor there itself. -/
theorem Valid.step (h : w.Valid) (config : Config) (words : Word.Segmenter) {step : Step}
    (hset : ∀ t u, step ≠ .set t u) : (w.step config step words).2.Valid := by
  cases step with
  | set t u => exact absurd rfl (hset t u)
  | press e => exact h.press config e words
  | paste text => exact h.edit _ _ text
  | repair | repairShape | clean => exact valid_replace config w _
  | click u => exact (config.legal_clamp w.buffer u).1
  | guardInsertion c =>
    rw [Widget.step]
    rcases Growth.insertGuarded_placed config w.buffer w.cursor c with he | ⟨new, v, he, hv⟩
    · rw [he]
      exact h
    · rw [he]
      exact hv
  | scan | display => exact h

/-- A user makes a step. The buffer that a repair compares with may be any, or none. -/
def Proceeds (config : Config) (words : Word.Segmenter) (w w' : Widget) : Prop :=
  ∃ previous? step, (∀ t u, step ≠ .set t u) ∧
    w' = (({ w with previous? } : Widget).step config step words).2

/-- **The cursor always addresses a place of the buffer**, after any number of key presses, pastes,
repairs, cleanings and clicks that start with the empty buffer, under every configuration and
whatever the words are. So does every cursor that an outcome hands over, in the buffer that the
outcome leaves. -/
theorem cursor_addresses_place (config : Config) (words : Word.Segmenter) :
    (∀ w : Widget, Relation.ReflTransGen (Proceeds config words) {} w →
      Addressable w.buffer w.cursor) ∧
    ∀ buffer cursor intent c, (config.apply buffer cursor intent words).cursor? = some c →
      Addressable ((config.apply buffer cursor intent words).buffer?.getD buffer) c := by
  constructor
  · intro w h
    induction h with
    | refl => exact addressable_zero []
    | @tail w₁ _ _ hstep ih =>
      obtain ⟨previous?, step, hset, rfl⟩ := hstep
      have hvalid : ({ w₁ with previous? } : Widget).Valid := ih
      exact hvalid.step config words hset
  · intro buffer cursor intent c hc
    exact (config.apply_placed buffer cursor intent words).addressable hc

/-- Text with a character of two units is pasted, the mention at its end is deleted, a letter is
typed at the end of the other one, and a click falls into the middle of the character. -/
theorem cursor_addresses_place_astral :
    Relation.ReflTransGen (Proceeds {} .standard) {} ⟨"😀@al x".toList, 0, some "😀@al".toList⟩ ∧
    Addressable "😀@al x".toList 0 ∧
    (({} : Config).apply "😀@al".toList 5 (.insertChar 'x') .standard).cursor? = some 7 ∧
    Addressable "😀@al x".toList 7 := by
  have hpaste : Proceeds {} .standard {} ⟨"😀@al@bob".toList, 9, some []⟩ :=
    ⟨none, .paste "😀@al@bob".toList, nofun, by decide⟩
  have hdelete : Proceeds {} .standard ⟨"😀@al@bob".toList, 9, some []⟩
      ⟨"😀@al".toList, 5, some "😀@al@bob".toList⟩ :=
    ⟨some [], .press ⟨"Backspace".toList, {}⟩, nofun, by decide⟩
  have htype : Proceeds {} .standard ⟨"😀@al".toList, 5, some "😀@al@bob".toList⟩
      ⟨"😀@al x".toList, 7, some "😀@al".toList⟩ :=
    ⟨none, .press ⟨['x'], {}⟩, nofun, by decide⟩
  have hclick : Proceeds {} .standard ⟨"😀@al x".toList, 7, some "😀@al".toList⟩
      ⟨"😀@al x".toList, 0, some "😀@al".toList⟩ :=
    ⟨some "😀@al".toList, .click 1, nofun, by decide⟩
  have hrun : Relation.ReflTransGen (Proceeds {} .standard) {}
      ⟨"😀@al x".toList, 0, some "😀@al".toList⟩ :=
    (((Relation.ReflTransGen.single hpaste).tail hdelete).tail htype).tail hclick
  have hout : (({} : Config).apply "😀@al".toList 5 (.insertChar 'x') .standard).cursor? =
      some 7 := by decide
  obtain ⟨hcursor, happly⟩ := cursor_addresses_place {} .standard
  exact ⟨hrun, hcursor _ hrun, hout, happly _ _ _ _ hout⟩

end Widget

end Mentions
