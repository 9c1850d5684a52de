import Mentions.Proofs.Checked.Overlay
import Mentions.Proofs.Checked.Repair

/-!
# Nothing goes wrong

What a host can ask of the library goes wrong nowhere: with every sum, difference, cut and look-up
checked, each operation returns, and with the very result that the library's definition gives. No
configuration is refused, so that the marker may be any character, and the cursor may be any number.

The length of a text is a machine word, which is all that is asked of the buffers (`Fits`). This
includes those that come out, which matters only where a buffer gets longer: at the end of the
machine words there is no room for one character more.
-/

namespace Mentions.Checked

open Text Overlay

/-- The text as it is displayed, which is copied only if something of it is invisible. -/
def displayText (t : Text) : Checked Text :=
  return if t.any isZeroWidth then t.filter fun c => !isZeroWidth c else t

theorem displayText_eq (t : Text) : displayText t = pure (strip t) := by
  rw [displayText]
  cases hany : t.any isZeroWidth with
  | true => rfl
  | false =>
    have hall : ∀ c ∈ t, isZeroWidth c = false := by
      intro c hc
      exact Bool.eq_false_iff.2 (List.any_eq_false.1 hany c hc)
    rw [strip_eq_self_iff.2 hall]
    rfl

/-- **The operations return**, for every configuration and every cursor, whatever the words are.
None of them cuts a text inside a character or beyond its end, reads a byte that is not there, or
takes a sum or a difference that is no offset; each replacement is made, and each look-up of an
offset that is known to address a place succeeds; and each loop ends. -/
theorem operations_return {m : Type → Type} [Monad m] [LawfulMonad m] {α : Type} [Extent α]
    (config : Config) (words : Word.Segmenter) (name? : Text → Option Text)
    (measure : Measure m α) {buffer : Text} {previous? : Option Text} (cursor : Nat)
    (hbuffer : Fits buffer) (hprevious : ∀ previous ∈ previous?, Fits previous) :
    scan config.marker buffer = .ok (Mentions.scan config.marker buffer) ∧
    (∀ intent, intercept config buffer cursor intent words =
      .ok (Atomic.intercept config buffer cursor intent words)) ∧
    (∀ intent, (∀ new, (config.apply buffer cursor intent words).buffer? = some new → Fits new) →
      apply config buffer cursor intent words = .ok (config.apply buffer cursor intent words)) ∧
    (∀ c, Fits (Growth.insertGuarded config buffer cursor c).buffer →
      insertGuarded config buffer cursor c = .ok (Growth.insertGuarded config buffer cursor c)) ∧
    (Fits (Growth.repair config buffer previous?) →
      repair config buffer previous? = .ok (Growth.repair config buffer previous?)) ∧
    clamp config buffer cursor = .ok (config.clamp buffer cursor) ∧
    displayText buffer = .ok (strip buffer) ∧
    segments config.marker name? buffer = .ok (Segment.ofBuffer config.marker name? buffer) ∧
    ∀ cursor?, (layout config.marker name? measure buffer cursor?).run =
      .ok <$> Layout.make config.marker name? measure buffer cursor? := by
  refine ⟨scan_eq hbuffer config.marker, intercept_eq hbuffer config cursor,
    apply_eq hbuffer config cursor, insertGuarded_eq hbuffer config cursor,
    repair_eq hbuffer hprevious, clamp_eq hbuffer config cursor, displayText_eq buffer,
    segments_eq hbuffer config.marker name?, ?_⟩
  intro cursor?
  exact layout_eq hbuffer config.marker name? measure cursor?

/-- A marker outside the basic plane, a mention that has grown, and a cursor at the end of the
machine words. -/
theorem operations_return_astral :
    let config : Config := { marker := '😀' }
    let buffer := "😀bobby x".toList
    let previous := "😀bob x".toList
    Fits buffer ∧ Fits previous ∧
    scan config.marker buffer = .ok [⟨0, 7, "😀bobby".toList⟩] ∧
    repair config buffer (some previous) = .ok "😀bob\u200b\u200c\u200bby x".toList ∧
    clamp config buffer maxOffset = .ok 9 := by
  intro config buffer previous
  have hbuffer : Fits buffer := by decide +kernel
  have hprevious : Fits previous := by decide +kernel
  have hreturn : ∀ p ∈ some previous, Fits p := by
    rintro p hp
    cases hp
    exact hprevious
  obtain ⟨hscan, -, -, -, hrepair, hclamp, -⟩ := operations_return config .standard (fun _ => none)
    (⟨fun t _ => pure t.length, 1⟩ : Measure Id Nat) maxOffset hbuffer hreturn
  refine ⟨hbuffer, hprevious, hscan.trans ?_, (hrepair ?_).trans ?_, hclamp.trans ?_⟩
  · exact congrArg Except.ok (by decide +kernel)
  · decide +kernel
  · exact congrArg Except.ok (by decide +kernel)
  · exact congrArg Except.ok (by decide +kernel)

end Mentions.Checked
