import Mentions.Proofs.Growth.Typing

/-!
# Typing at the end of a mention

What follows a mention is released, so nothing that is written before it fuses with it. A text that
is inserted at the end of a mention can therefore do no more than move the mentions behind it, if it
begins with no body character and holds no mention itself (`scan_insert_stop`).

There are two such texts. At the end of a mention the guard inserts the character that is typed
behind a space, and what it leaves to the host is no body character (`insertGuarded_stop`). So the
mentions are the same in both cases, even if the character is the marker:
`typing_at_stop_only_moves_mentions`.
-/

namespace Mentions

open Text

variable {m c : Char} {l r x : Text} {s : Span} {n : Nat} {config : Config}

/-! ## An insertion -/

/-- The span where it is once `n` units have been inserted at an offset that is not inside it. -/
def Span.pushed (u n : Nat) (s : Span) : Span := if s.stop ≤ u then s else s.shift n

theorem Span.pushed_of_stop_le {u : Nat} (h : s.stop ≤ u) : s.pushed u n = s := if_pos h

theorem Span.pushed_of_lt_stop {u : Nat} (h : u < s.stop) : s.pushed u n = s.shift n :=
  if_neg (Nat.not_le.2 h)

/-- The mentions of two texts that do not fuse, with the second one further to the right. -/
theorem map_pushed_scan_append (hf : ¬Fuses m l r) (n : Nat) :
    (scan m (l ++ r)).map (Span.pushed (units l) n) =
      scan m l ++ (scan m r).map (Span.shift (units l + n)) := by
  have hleft : (scan m l).map (Span.pushed (units l) n) = (scan m l).map id := by
    refine List.map_congr_left ?_
    intro s hs
    exact Span.pushed_of_stop_le (s.addressable_stop hs).le
  have hright : (scan m r).map (Span.pushed (units l) n ∘ Span.shift (units l)) =
      (scan m r).map (Span.shift (units l + n)) := by
    refine List.map_congr_left ?_
    intro s hs
    have hpos := s.start_lt_stop hs
    have hstop : units l < (s.shift (units l)).stop := by
      rw [Span.shift_stop]
      omega
    exact (Span.pushed_of_lt_stop hstop).trans (s.shift_shift _ _)
  rw [scan_append hf, List.map_append, List.map_map, hleft, List.map_id, hright]

/-- A text without mentions that fuses with neither side moves the mentions behind it. -/
theorem scan_insert (hf : ¬Fuses m l r) (hl : ¬Fuses m l (x ++ r)) (hr : ¬Fuses m x r)
    (hx : scan m x = []) :
    scan m (l ++ (x ++ r)) = (scan m (l ++ r)).map (Span.pushed (units l) (units x)) := by
  rw [map_pushed_scan_append hf, scan_append hl, scan_append hr, hx, List.nil_append,
    map_shift_shift, Nat.add_comm (units x)]

/-- At the end of a mention, a text that starts with no body character and holds no mention moves
the mentions behind it, and the place behind it is legal. -/
theorem scan_insert_stop (hm : isBodyChar m = false) (hs : s ∈ scan m (l ++ r))
    (h : s.stop = units l) (hx : Released (x ++ r)) (hnone : scan m x = []) :
    scan m (l ++ (x ++ r)) = (scan m (l ++ r)).map (Span.pushed (units l) (units x)) ∧
      Legal m (l ++ (x ++ r)) (units l + units x) := by
  obtain ⟨-, -, -, -, hr, -⟩ := exists_of_stop_eq hs h
  constructor
  · exact scan_insert (fun hf => hf.not_released hr) (fun hf => hf.not_released hx)
      (fun hf => hf.not_released hr) hnone
  · rw [← List.append_assoc, ← units_append]
    exact (legal_append_iff hm).2 fun hf => hf.not_released hr

/-- What is written by itself at the end of a mention and cannot belong to it only moves the
mentions behind it. -/
theorem scan_insert_char (hm : isBodyChar m = false) (hs : s ∈ scan m (l ++ r))
    (h : s.stop = units l) (hc : isBodyChar c = false) :
    scan m (l ++ ([c] ++ r)) = (scan m (l ++ r)).map (Span.pushed (units l) (units [c])) := by
  have hnone : scan m [c] = [] := (Scans.pass (fun _ => released_nil) .done).scan_eq
  exact (scan_insert_stop hm hs h (released_cons hc) hnone).1

/-- What is written behind a space at the end of a mention only moves the mentions behind it, and is
no mention, not even with the text that follows. -/
theorem scan_insert_space (hm : isBodyChar m = false) (hblank : isBlankChar m = false)
    (hs : s ∈ scan m (l ++ r)) (h : s.stop = units l) (c : Char) :
    scan m (l ++ ([' ', c] ++ r)) =
        (scan m (l ++ r)).map (Span.pushed (units l) (units [' ', c])) ∧
      Legal m (l ++ ([' ', c] ++ r)) (units l + units [' ', c]) := by
  have hspace : ' ' ≠ m := by
    rintro rfl
    revert hblank
    decide
  have hnone : scan m [' ', c] = [] :=
    (Scans.pass (fun h => absurd h hspace) (.pass (fun _ => released_nil) .done)).scan_eq
  exact scan_insert_stop hm hs h (released_cons (by decide)) hnone

namespace Growth

/-! ## The guard at the end of a mention -/

/-- At the end of a mention a character is inserted behind a space, unless it cannot belong to a
mention and the guard lets it through. -/
theorem insertGuarded_stop (hs : s ∈ scan config.marker (l ++ r)) (h : s.stop = units l)
    (c : Char) :
    insertGuarded config (l ++ r) (units l) c =
      if config.guardBodyOnly = true → isBodyChar c = true then
        ⟨l ++ ([' ', c] ++ r), units l + 1 + unitsOf c, true⟩
      else ⟨l ++ r, units l, false⟩ := by
  have hend : Span.endingAt? (scan config.marker (l ++ r)) (units l) = some s := by
    rw [← h]
    exact s.endingAt?_stop hs
  have hpass : (config.guardBodyOnly && !isBodyChar c) = true ↔
      ¬(config.guardBodyOnly = true → isBodyChar c = true) := by
    simp
  rw [insertGuarded]
  simp only [hend, splice?_insert, List.append_assoc, hpass, ite_not]

/-- **Typing at the end of a mention moves the mentions behind it and does nothing else to any.**
The guard inserts the character behind a space, or the host inserts it by itself; the mentions
before the cursor stay in place, those behind it move by what has been inserted, and there are no
others. A cursor that the guard returns is right behind the character and in no mention. -/
theorem typing_at_stop_only_moves_mentions (config : Config) (buffer : Text) (s : Span) (c : Char)
    (hv : config.validate = .ok ()) (hs : s ∈ scan config.marker buffer) :
    let e := insertGuarded config buffer s.stop c
    let inserted := if e.applied then [' ', c] else [c]
    let new :=
      if e.applied then e.buffer
      else ((⟨buffer, s.stop, none⟩ : Widget).defaultAction (.insertChar c)).buffer
    (e.applied = true ↔ (config.guardBodyOnly = true → isBodyChar c = true)) ∧
    buffer.splice? s.stop s.stop inserted = some new ∧
    (∀ s' ∈ scan config.marker buffer, s'.stop ≤ s.stop ∨ s.stop ≤ s'.start) ∧
    scan config.marker new =
      (scan config.marker buffer).map (Span.pushed s.stop (units inserted)) ∧
    (e.applied = true →
      e.cursor = s.stop + 1 + unitsOf c ∧ new.charAt? (s.stop + 1) = some c ∧
        Legal config.marker new e.cursor) := by
  intro e inserted new
  obtain ⟨hm, -, hblank⟩ := Config.marker_of_validate hv
  have hapart : ∀ s' ∈ scan config.marker buffer, s'.stop ≤ s.stop ∨ s.stop ≤ s'.start := by
    intro s' hs'
    exact ((legal_stop hs).outside hs').symm
  obtain ⟨l, r, rfl, hstop⟩ := addressable_iff.1 (s.addressable_stop hs)
  have hsplice (x : Text) : splice? (l ++ r) s.stop s.stop x = some (l ++ (x ++ r)) := by
    rw [← hstop, splice?_insert, List.append_assoc]
  have he : e = insertGuarded config (l ++ r) (units l) c := by rw [hstop]
  rw [insertGuarded_stop hs hstop.symm] at he
  clear_value e
  by_cases hguard : config.guardBodyOnly = true → isBodyChar c = true
  · rw [if_pos hguard] at he
    subst he
    obtain ⟨hscan, hlegal⟩ := scan_insert_space hm hblank hs hstop.symm c
    refine ⟨iff_of_true rfl hguard, hsplice [' ', c], hapart, ?_, ?_⟩
    · rw [← hstop]
      exact hscan
    · intro _
      rw [← hstop]
      refine ⟨rfl, ?_, ?_⟩
      · have hchar := charAt?_append (l ++ [' ']) (c :: r)
        rw [List.append_assoc, units_append] at hchar
        exact hchar
      · show Legal config.marker _ (units l + 1 + unitsOf c)
        rw [Nat.add_assoc]
        exact hlegal
  · -- the character is left to the host
    rw [if_neg hguard] at he
    subst he
    have hbody : isBodyChar c = false := Bool.eq_false_iff.2 fun h => hguard fun _ => h
    have hnew : new = l ++ ([c] ++ r) := by
      show ((⟨l ++ r, s.stop, none⟩ : Widget).defaultAction (.insertChar c)).buffer = _
      rw [← hstop]
      exact insertChar_defaultAction l r c
    rw [hnew]
    refine ⟨iff_of_false Bool.false_ne_true hguard, hsplice [c], hapart, ?_, nofun⟩
    rw [← hstop]
    exact scan_insert_char hm hs hstop.symm hbody

/-- The marker itself is typed between two mentions. -/
theorem typing_at_stop_only_moves_mentions_marker :
    ({} : Config).validate = .ok () ∧ (⟨0, 3, "@al".toList⟩ : Span) ∈ scan '@' "@al@bob".toList ∧
    insertGuarded {} "@al@bob".toList 3 '@' = ⟨"@al @@bob".toList, 5, true⟩ ∧
    scan '@' "@al @@bob".toList = [⟨0, 3, "@al".toList⟩, ⟨5, 9, "@bob".toList⟩] ∧
    Legal '@' "@al @@bob".toList 5 := by
  have hv : ({} : Config).validate = .ok () := by decide
  have hs : (⟨0, 3, "@al".toList⟩ : Span) ∈ scan '@' "@al@bob".toList := by decide
  have he : insertGuarded {} "@al@bob".toList 3 '@' = ⟨"@al @@bob".toList, 5, true⟩ := by decide
  have hold : scan '@' "@al@bob".toList = [⟨0, 3, "@al".toList⟩, ⟨3, 7, "@bob".toList⟩] := by decide
  obtain ⟨-, -, -, hscan, hcursor⟩ :=
    typing_at_stop_only_moves_mentions {} "@al@bob".toList ⟨0, 3, "@al".toList⟩ '@' hv hs
  rw [he] at hscan hcursor
  exact ⟨hv, hs, he, hscan.trans (congrArg _ hold), (hcursor rfl).2.2⟩

end Growth

end Mentions
