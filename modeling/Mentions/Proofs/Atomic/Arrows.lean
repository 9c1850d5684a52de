import Mathlib.Logic.Function.Iterate
import Mentions.Proofs.Atomic.Movement

/-!
# Arrow keys visit every mention

Pressed again and again, the right arrow key takes the cursor through the whole text. What has to be
shown of a single step is that it passes the end of no mention without landing there
(`strides_moveRight`). The library looks at where the next character ends, not at the cursor, and
goes to the end of the first mention that starts up to there: a mention that ends behind the cursor
is that one, or starts behind the end of it. Where there is none the host steps over one character,
and no place is inside a character (`strides_past`).

From any such step it follows that the run comes to its goal, since each step leaves less text
ahead, and that it visits each stop on the way (`visits_of_strides`). Different mentions end at
different places, so that no step passes two of them. The left arrow key is the mirror image, with
the starts of the mentions as its stops.

Main statement: `arrows_visit_every_mention`.
-/

namespace Mentions

open Text

variable {t : Text} {u goal : Nat} {s : Span} {stops : List Nat} {ahead : Nat → Nat → Prop}
  {step : Nat → Nat} {p? : Option Text}

/-- A step to the right from `u` to `v` leads past the end of the span. -/
def Span.PassedRight (s : Span) (u v : Nat) : Prop := u < s.stop ∧ s.stop ≤ v

/-- A step to the left from `u` to `v` leads past the start of the span. -/
def Span.PassedLeft (s : Span) (u v : Nat) : Prop := v ≤ s.start ∧ s.start < u

namespace Atomic

/-! ## Runs -/

/-- Repeating a step from the cursor leads ahead until the goal is reached, and visits each stop
that is ahead of the cursor. -/
def Visits (step : Nat → Nat) (ahead : Nat → Nat → Prop) (goal : Nat) (stops : List Nat)
    (cursor : Nat) : Prop :=
  ∃ n, step^[n] cursor = goal ∧ (∀ k < n, ahead (step^[k] cursor) (step^[k + 1] cursor)) ∧
    ∀ w ∈ stops, ahead cursor w → ∃ k ≤ n, step^[k] cursor = w

/-- A step from `u` to a place `v` of the text that leads ahead unless `u` is the goal, and passes
no stop without landing there. -/
structure Strides (t : Text) (ahead : Nat → Nat → Prop) (goal : Nat) (stops : List Nat)
    (u v : Nat) : Prop where
  addressable : Addressable t v
  goes : u ≠ goal → ahead u v
  lands : ∀ w ∈ stops, ahead u w → v = w ∨ ahead v w

/-- Such steps visit each stop and come to the goal, if each of them makes what is left smaller and
no stop is ahead of the goal. -/
theorem visits_of_strides (left : Nat → Nat)
    (hstep : ∀ u, Addressable t u → Strides t ahead goal stops u (step u))
    (hleft : ∀ u v, Addressable t u → Addressable t v → ahead u v → left v < left u)
    (hgoal : ∀ w ∈ stops, ¬ahead goal w) (hu : Addressable t u) :
    Visits step ahead goal stops u := by
  induction hn : left u using Nat.strongRecOn generalizing u with
  | ind n ih =>
    subst hn
    obtain ⟨hv, hgoes, hlands⟩ := hstep u hu
    by_cases h : u = goal
    · subst h
      exact ⟨0, rfl, nofun, fun w hw hahead => absurd hahead (hgoal w hw)⟩
    · obtain ⟨n, hend, hgo, hvisit⟩ := ih _ (hleft u _ hu hv (hgoes h)) hv rfl
      refine ⟨n + 1, hend, ?_, ?_⟩
      · intro k hk
        cases k with
        | zero => exact hgoes h
        | succ k => exact hgo k (Nat.lt_of_succ_lt_succ hk)
      · intro w hw hahead
        rcases hlands w hw hahead with heq | hbeyond
        · exact ⟨1, by omega, heq⟩
        · obtain ⟨k, hk, heq⟩ := hvisit w hw hbeyond
          exact ⟨k + 1, by omega, heq⟩

/-- Every position of the run is a place of the text. -/
theorem addressable_iterate
    (hstep : ∀ u, Addressable t u → Strides t ahead goal stops u (step u))
    (hu : Addressable t u) (k : Nat) : Addressable t (step^[k] u) := by
  induction k generalizing u with
  | zero => exact hu
  | succ k ih => exact ih (hstep u hu).addressable

/-- A stop that a step of the run does not leave ahead is where it lands. -/
theorem iterate_eq_of_not_ahead
    (hstep : ∀ u, Addressable t u → Strides t ahead goal stops u (step u))
    (hu : Addressable t u) {k w : Nat} (hw : w ∈ stops) (hahead : ahead (step^[k] u) w)
    (hnot : ¬ahead (step^[k + 1] u) w) : step^[k + 1] u = w := by
  rw [Function.iterate_succ_apply'] at hnot ⊢
  exact ((hstep _ (addressable_iterate hstep hu k)).lands w hw hahead).resolve_right hnot

/-! ## To the right -/

/-- What is looked at for a step to the right is where the host would take the cursor. -/
theorem moveRight_eq_elim (t : Text) (spans : List Span) (u : Nat) :
    moveRight t spans u =
      (spans.find? fun s => s.start ≤ Widget.past ⟨t, u, none⟩ && u < s.stop).elim .pass
        fun s => .moveTo s.stop := by
  unfold moveRight
  extract_lets landing
  have hlanding : landing = Widget.past ⟨t, u, none⟩ := rfl
  rw [hlanding]
  cases spans.find? fun s => s.start ≤ Widget.past ⟨t, u, none⟩ && u < s.stop <;> rfl

/-- A step to the right lands at the end of a mention, with the others that end behind the cursor
behind it, or else behind the next character. -/
theorem arrival_moveRight_cases (config : Config) (words : Word.Segmenter)
    (hu : Addressable t u) :
    (∃ s ∈ scan config.marker t, u < s.stop ∧ arrival config t u (.moveRight {}) words = s.stop ∧
      ∀ s' ∈ scan config.marker t, u < s'.stop → s' = s ∨ s.stop ≤ s'.start) ∨
    arrival config t u (.moveRight {}) words = Widget.past ⟨t, u, none⟩ := by
  have hout : intercept config t u (.moveRight {}) words = moveRight t (scan config.marker t) u :=
    Host.intercept_of_addressable hu
  rw [moveRight_eq_elim] at hout
  cases hfind : (scan config.marker t).find? fun s =>
      s.start ≤ Widget.past ⟨t, u, none⟩ && u < s.stop with
  | none =>
    rw [hfind] at hout
    exact .inr (arrival_of_pass hout)
  | some s =>
    rw [hfind] at hout
    have hs := List.mem_of_find?_eq_some hfind
    have htest := List.find?_some hfind
    simp only [Bool.and_eq_true, decide_eq_true_eq] at htest
    refine .inl ⟨s, hs, htest.2, arrival_of_moveTo hout, fun s' hs' hlt => ?_⟩
    by_cases hreach : s'.start ≤ Widget.past ⟨t, u, none⟩
    · exact Span.stop_le_of_find? hfind hs' (by simp [hreach, hlt])
    · -- a mention that the step does not reach starts behind the one that it does
      by_cases heq : s' = s
      · exact .inl heq
      · have hlong := s'.start_lt_stop hs'
        rcases Span.apart_of_ne hs' hs heq with hapart | hapart
        · omega
        · exact .inr hapart

/-- A step over the character at the cursor passes no place. -/
theorem strides_past (hstops : ∀ w ∈ stops, Addressable t w) (hu : Addressable t u) :
    Strides t (· < ·) (units t) stops u (Widget.past ⟨t, u, p?⟩) := by
  obtain ⟨l, r, rfl, rfl⟩ := addressable_iff.1 hu
  cases r with
  | nil =>
    rw [List.append_nil] at hstops ⊢
    rw [Host.past_units]
    refine ⟨addressable_units l, fun h => absurd rfl h, fun w hw hahead => ?_⟩
    exact absurd hahead (Nat.not_lt.2 (hstops w hw).le)
  | cons c r =>
    rw [Host.past_append_cons]
    have hplace : Addressable (l ++ c :: r) (units l + unitsOf c) := by
      simpa using addressable_append (l ++ [c]) r
    refine ⟨hplace, fun _ => Nat.lt_add_of_pos_right (unitsOf_pos c), fun w hw hahead => ?_⟩
    exact Nat.eq_or_lt_of_le ((hstops w hw).le_of_lt hahead)

/-- A step to the right passes the end of no mention without landing there. -/
theorem strides_moveRight (config : Config) (words : Word.Segmenter) (hu : Addressable t u) :
    Strides t (· < ·) (units t) ((scan config.marker t).map Span.stop) u
      (arrival config t u (.moveRight {}) words) := by
  rcases arrival_moveRight_cases config words hu with ⟨s, hs, hlt, harrival, hfirst⟩ | harrival
  · rw [harrival]
    refine ⟨s.addressable_stop hs, fun _ => hlt, List.forall_mem_map.2 fun s' hs' hahead => ?_⟩
    rcases hfirst s' hs' hahead with rfl | hle
    · exact .inl rfl
    · exact .inr (Nat.lt_of_le_of_lt hle (s'.start_lt_stop hs'))
  · rw [harrival]
    exact strides_past (List.forall_mem_map.2 fun s hs => s.addressable_stop hs) hu

/-! ## To the left -/

/-- A step over the character before the cursor passes no place. -/
theorem strides_before (hstops : ∀ w ∈ stops, Addressable t w) (hu : Addressable t u) :
    Strides t (· > ·) 0 stops u (Widget.before ⟨t, u, p?⟩) := by
  obtain ⟨l, r, rfl, rfl⟩ := addressable_iff.1 hu
  rcases List.eq_nil_or_concat l with rfl | ⟨l, c, rfl⟩
  · rw [units_nil, Host.before_zero]
    refine ⟨addressable_zero _, fun h => absurd rfl h, fun w _ hahead => ?_⟩
    exact absurd hahead (Nat.not_lt_zero w)
  · have hlen : units (l ++ [c]) = units l + unitsOf c := by simp
    rw [List.concat_eq_append, List.append_assoc, List.singleton_append] at hstops ⊢
    rw [hlen, Host.before_append_cons]
    refine ⟨addressable_append l _, fun _ => Nat.lt_add_of_pos_right (unitsOf_pos c),
      fun w hw hahead => ?_⟩
    exact (Nat.eq_or_lt_of_le ((hstops w hw).le_of_lt_add hahead)).imp_left Eq.symm

/-- A step to the left passes the start of no mention without landing there. -/
theorem strides_moveLeft (config : Config) (words : Word.Segmenter) (hu : Addressable t u) :
    Strides t (· > ·) 0 ((scan config.marker t).map Span.start) u
      (arrival config t u (.moveLeft {}) words) := by
  have hout : intercept config t u (.moveLeft {}) words = moveLeft (scan config.marker t) u :=
    Host.intercept_of_addressable hu
  rw [moveLeft] at hout
  cases hfind : ahead? (scan config.marker t) u with
  | some s =>
    rw [hfind] at hout
    obtain ⟨hs, hlt, hle⟩ := mem_of_ahead?_eq_some hfind
    rw [arrival_of_moveTo hout]
    refine ⟨s.addressable_start hs, fun _ => hlt, List.forall_mem_map.2 fun s' hs' hahead => ?_⟩
    by_cases heq : s' = s
    · exact .inl (congrArg Span.start heq.symm)
    · have hlong := s'.start_lt_stop hs'
      rcases Span.apart_of_ne hs' hs heq with hapart | hapart <;> omega
  | none =>
    rw [hfind] at hout
    rw [arrival_of_pass hout]
    exact strides_before (List.forall_mem_map.2 fun s hs => s.addressable_start hs) hu

/-! ## Both ways -/

/-- **The arrow keys lead through the whole text and stop at every mention.** From any place of the
buffer, steps to the right go strictly to the right until they come to its end, and visit the end of
each mention that ends behind the cursor; steps to the left go strictly to the left until they come
to its start, and visit the start of each mention that starts before the cursor. No step leads past
two mentions at once. -/
theorem arrows_visit_every_mention (config : Config) (words : Word.Segmenter) (buffer : Text)
    (cursor : Nat) (hc : Addressable buffer cursor) :
    let spans := scan config.marker buffer
    let right := fun u => arrival config buffer u (.moveRight {}) words
    let left := fun u => arrival config buffer u (.moveLeft {}) words
    Visits right (· < ·) (units buffer) (spans.map Span.stop) cursor ∧
    Visits left (· > ·) 0 (spans.map Span.start) cursor ∧
    ∀ k, ∀ s ∈ spans, ∀ s' ∈ spans,
      (s.PassedRight (right^[k] cursor) (right^[k + 1] cursor) →
        s'.PassedRight (right^[k] cursor) (right^[k + 1] cursor) → s = s') ∧
      (s.PassedLeft (left^[k] cursor) (left^[k + 1] cursor) →
        s'.PassedLeft (left^[k] cursor) (left^[k + 1] cursor) → s = s') := by
  intro spans right left
  have hright (u : Nat) (hu : Addressable buffer u) := strides_moveRight config words hu
  have hleft (u : Nat) (hu : Addressable buffer u) := strides_moveLeft config words hu
  refine ⟨?_, ?_, fun k s hs s' hs' => ⟨?_, ?_⟩⟩
  · refine visits_of_strides (fun u => units buffer - u) hright ?_ ?_ hc
    · intro u v _ hv hlt
      have hend := hv.le
      omega
    · exact List.forall_mem_map.2 fun s hs => Nat.not_lt.2 (s.addressable_stop hs).le
  · exact visits_of_strides id hleft (fun u v _ _ hlt => hlt) (fun w _ => Nat.not_lt_zero w) hc
  · rintro ⟨hlt, hle⟩ ⟨hlt', hle'⟩
    have hstop := iterate_eq_of_not_ahead hright hc (List.mem_map_of_mem hs) hlt (Nat.not_lt.2 hle)
    have hstop' := iterate_eq_of_not_ahead hright hc (List.mem_map_of_mem hs') hlt'
      (Nat.not_lt.2 hle')
    exact eq_of_stop_eq hs hs' (hstop.symm.trans hstop')
  · rintro ⟨hle, hlt⟩ ⟨hle', hlt'⟩
    have hstart := iterate_eq_of_not_ahead hleft hc (List.mem_map_of_mem hs) hlt (Nat.not_lt.2 hle)
    have hstart' := iterate_eq_of_not_ahead hleft hc (List.mem_map_of_mem hs') hlt'
      (Nat.not_lt.2 hle')
    exact eq_of_start_eq hs hs' (hstart.symm.trans hstart')

/-- A character of two units before a mention, and another mention right behind it: the step over
the character ends behind the first mention, and the next one behind the second. -/
theorem arrows_visit_every_mention_adjacent :
    Addressable "x😀@al@bob y".toList 1 ∧
    scan '@' "x😀@al@bob y".toList = [⟨3, 6, "@al".toList⟩, ⟨6, 10, "@bob".toList⟩] ∧
    walk {} "x😀@al@bob y".toList 1 [.moveRight {}, .moveRight {}, .moveRight {}, .moveRight {}]
      .standard = [6, 10, 11, 12] ∧
    (∃ k, (fun u => arrival {} "x😀@al@bob y".toList u (.moveRight {}) .standard)^[k] 1 = 10) ∧
    ∃ n, (fun u => arrival {} "x😀@al@bob y".toList u (.moveLeft {}) .standard)^[n] 1 = 0 := by
  have hc : Addressable "x😀@al@bob y".toList 1 := by decide
  have hscan : scan '@' "x😀@al@bob y".toList = [⟨3, 6, "@al".toList⟩, ⟨6, 10, "@bob".toList⟩] := by
    decide
  obtain ⟨⟨n, -, -, hvisit⟩, ⟨n', hend, -, -⟩, -⟩ :=
    arrows_visit_every_mention {} .standard "x😀@al@bob y".toList 1 hc
  obtain ⟨k, -, hk⟩ := hvisit 10 (by decide) (by decide)
  exact ⟨hc, hscan, by decide, ⟨k, hk⟩, ⟨n', hend⟩⟩

end Atomic

end Mentions
