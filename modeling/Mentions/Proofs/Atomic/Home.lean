import Mathlib.Data.List.Induction
import Mentions.Proofs.Atomic.Movement

/-!
# Home visits the mentions of the line

Pressed again and again, the home key takes the cursor from the end of one mention to the end of the
one before it, until there is none left between the start of the line and the cursor; then the host
takes the cursor to the start of the line. `Repeats` is such a run: the positions that a movement
visits as long as the library takes it over.

The mentions that are still to be visited (`between`) are in order, so the one that a jump ends at
is the last of them, and those before it are the ones that are left (`between_stop`). No line feed
stands between the start of a line and a cursor in it, so the jump stays in the line
(`lineStart_of_between`). The run is then an induction on the mentions that are left, from the last
one to the first (`repeats_moveHome`).

Main statement: `home_visits_mentions_of_line`.
-/

namespace Mentions

open Text

variable {m : Char} {l r t x : Text} {u v origin : Nat} {s : Span} {front spans : List Span}
  {config : Config} {intent : Intent} {words : Word.Segmenter} {visited : List Nat}

namespace Atomic

/-! ## Lines -/

/-- A text without a line feed stays in the line. -/
theorem lineStart_append (hx : '\n' ∉ x) (l r : Text) :
    lineStart ((l ++ x) ++ r) (units (l ++ x)) = lineStart (l ++ (x ++ r)) (units l) := by
  have hnone : ∀ c ∈ x, decide (c = '\n') = false := by
    intro c hc
    refine decide_eq_false ?_
    rintro rfl
    exact hx hc
  simp only [lineStart, cut?_append, takeThrough_append hnone]

/-- A place between the start of a line and a place in it is in the same line. -/
theorem lineStart_of_between (hu : Addressable t u) (hv : Addressable t v)
    (hstart : lineStart t u ≤ v) (hle : v ≤ u) : lineStart t v = lineStart t u := by
  obtain ⟨l, r, rfl, rfl⟩ := addressable_iff.1 hu
  obtain ⟨l₀, line, rfl, horigin, hline, -⟩ := Host.exists_lineStart l r
  rw [horigin] at hstart
  obtain ⟨l', r', he, rfl⟩ := addressable_iff.1 hv
  obtain ⟨y, hy, rfl⟩ := append_of_le he.symm hle
  obtain ⟨z, rfl, rfl⟩ := append_of_le hy hstart
  have hz : '\n' ∉ z := fun h => hline (List.mem_append_left y h)
  rw [lineStart_append hline, he, lineStart_append hz]
  simp only [List.append_assoc]

/-! ## Mentions that are left -/

/-- The spans between the start of a line and the cursor. -/
def between (origin cursor : Nat) (spans : List Span) : List Span :=
  spans.filter fun s => origin ≤ s.start && s.stop < cursor

theorem mem_between_iff :
    s ∈ between origin u spans ↔ s ∈ spans ∧ origin ≤ s.start ∧ s.stop < u := by
  simp [between]

/-- They end in order. -/
theorem pairwise_between (m : Char) (t : Text) (origin u : Nat) :
    (between origin u (scan m t)).Pairwise fun s s' => s.stop < s'.stop := by
  refine List.Pairwise.filter _ (List.Pairwise.imp_of_mem ?_ (scan_pairwise m t))
  intro s s' _ hs' hle
  exact Nat.lt_of_le_of_lt hle (s'.start_lt_stop hs')

/-- At the end of the last of them those before it are left. -/
theorem between_stop (h : between origin u (scan m t) = front ++ [s]) :
    between origin s.stop (scan m t) = front := by
  have hs : s ∈ between origin u (scan m t) := by simp [h]
  have hlt := (mem_between_iff.1 hs).2.2
  have hless : between origin s.stop (scan m t) =
      (between origin u (scan m t)).filter fun s' => s'.stop < s.stop := by
    rw [between, between, List.filter_filter]
    refine List.filter_congr fun s' _ => ?_
    rw [Bool.eq_iff_iff]
    simp only [Bool.and_eq_true, decide_eq_true_eq]
    omega
  have hpair := pairwise_between m t origin u
  rw [h] at hpair
  have hfront : ∀ s' ∈ front, s'.stop < s.stop := fun s' hs' =>
    (List.pairwise_append.1 hpair).2.2 s' hs' s (List.mem_singleton_self s)
  rw [hless, h, List.filter_append, List.filter_eq_self.2 fun s' hs' => by simp [hfront s' hs']]
  simp

/-- They end in the line. -/
theorem lineStart_stop (hu : Addressable t u)
    (hs : s ∈ between (lineStart t u) u (scan m t)) : lineStart t s.stop = lineStart t u := by
  obtain ⟨hs, hstart, hstop⟩ := mem_between_iff.1 hs
  have hlong := s.start_lt_stop hs
  exact lineStart_of_between hu (s.addressable_stop hs) (by omega) (Nat.le_of_lt hstop)

/-! ## Runs -/

/-- Repeating an edit as long as it is intercepted takes the cursor to the listed positions, one
after the other; then the edit passes. -/
inductive Repeats (config : Config) (buffer : Text) (intent : Intent) (words : Word.Segmenter) :
    Nat → List Nat → Prop
  /-- The edit is left to the host. -/
  | passes {u : Nat} (h : intercept config buffer u intent words = .pass) :
    Repeats config buffer intent words u []
  /-- The cursor moves, and the edit is repeated from there. -/
  | jumps {u v : Nat} {visited : List Nat} (h : intercept config buffer u intent words = .moveTo v)
      (hrest : Repeats config buffer intent words v visited) :
    Repeats config buffer intent words u (v :: visited)

/-- The edit passes at the last position. -/
theorem Repeats.intercept_getLastD (h : Repeats config t intent words u visited) :
    intercept config t (visited.getLastD u) intent words = .pass := by
  induction h with
  | passes h => exact h
  | jumps _ _ ih =>
    rw [List.getLastD_cons]
    exact ih

/-- From a cursor in no mention, the home key goes to the end of the last of the mentions that are
left, and passes if none is. -/
theorem intercept_moveHome (hu : Legal config.marker t u) :
    intercept config t u .moveHome words =
      (between (lineStart t u) u (scan config.marker t)).getLast?.elim .pass
        fun s => .moveTo s.stop := by
  have hout : intercept config t u .moveHome words = moveHome t (scan config.marker t) u :=
    Host.intercept_of_addressable hu.1
  rw [hout, moveHome, between]
  simp only [hu.around?_eq_none]
  cases ((scan config.marker t).filter fun s =>
    lineStart t u ≤ s.start && s.stop < u).getLast? <;> rfl

/-- The home key visits the ends of the mentions that are left, the last one first. -/
theorem repeats_moveHome (words : Word.Segmenter) (hu : Legal config.marker t u)
    (h : between (lineStart t u) u (scan config.marker t) = spans) :
    Repeats config t .moveHome words u (spans.map Span.stop).reverse := by
  induction spans using List.reverseRecOn generalizing u with
  | nil =>
    refine .passes ?_
    rw [intercept_moveHome hu, h]
    rfl
  | append_singleton front s ih =>
    have hs : s ∈ between (lineStart t u) u (scan config.marker t) := by simp [h]
    rw [List.map_append, List.map_singleton, List.reverse_append, List.reverse_singleton,
      List.singleton_append]
    refine .jumps ?_ (ih (legal_stop (mem_between_iff.1 hs).1) ?_)
    · rw [intercept_moveHome hu, h, List.getLast?_concat]
      rfl
    · rw [lineStart_stop hu.1 hs]
      exact between_stop h

/-- **The home key visits the mentions of the line and then leaves the cursor to the host.** From a
cursor in no mention, it goes to the ends of the mentions that start in the cursor's line and end
before the cursor, to each one once, from the last to the first. It stays in the line, and where
none is left it passes, so that the host goes to the start of the line. The left arrow key with the
command key does the same everywhere. -/
theorem home_visits_mentions_of_line (config : Config) (words : Word.Segmenter) (buffer : Text)
    (cursor : Nat) (hc : Legal config.marker buffer cursor) :
    ∃ before line after visited, buffer = before ++ (line ++ after) ∧
      units before + units line = cursor ∧
      '\n' ∉ line ∧ (before = [] ∨ ∃ x, before = x ++ ['\n']) ∧
      Repeats config buffer .moveHome words cursor visited ∧
      (cursor :: visited).Pairwise (· > ·) ∧
      (∀ p, p ∈ visited ↔
        ∃ s ∈ scan config.marker buffer, units before ≤ s.start ∧ s.stop < cursor ∧ s.stop = p) ∧
      (∀ p ∈ cursor :: visited, lineStart buffer p = units before) ∧
      arrival config buffer (visited.getLastD cursor) .moveHome words = units before ∧
      ∀ ctrl u, intercept config buffer u (.moveLeft ⟨ctrl, true⟩) words =
        intercept config buffer u .moveHome words := by
  obtain ⟨l, after, rfl, rfl⟩ := addressable_iff.1 hc.1
  obtain ⟨before, line, rfl, horigin, hline, hbefore⟩ := Host.exists_lineStart l after
  generalize hspans : between (lineStart (before ++ line ++ after) (units (before ++ line)))
    (units (before ++ line)) (scan config.marker (before ++ line ++ after)) = spans
  have hrun := repeats_moveHome words hc hspans
  have hmem (p : Nat) : p ∈ (spans.map Span.stop).reverse ↔
      ∃ s ∈ scan config.marker (before ++ line ++ after),
        units before ≤ s.start ∧ s.stop < units (before ++ line) ∧ s.stop = p := by
    rw [List.mem_reverse, List.mem_map, ← hspans, horigin]
    simp only [mem_between_iff, and_assoc]
  have hsame : ∀ p ∈ units (before ++ line) :: (spans.map Span.stop).reverse,
      Addressable (before ++ line ++ after) p ∧
        lineStart (before ++ line ++ after) p = units before := by
    refine List.forall_mem_cons.2 ⟨⟨hc.1, horigin⟩, fun p hp => ?_⟩
    rw [List.mem_reverse, List.mem_map, ← hspans] at hp
    obtain ⟨s, hs, rfl⟩ := hp
    exact ⟨s.addressable_stop (mem_between_iff.1 hs).1, (lineStart_stop hc.1 hs).trans horigin⟩
  refine ⟨before, line, after, _, List.append_assoc _ _ _, (units_append _ _).symm, hline, hbefore,
    hrun, List.pairwise_cons.2 ⟨fun p hp => ?_, ?_⟩, hmem, fun p hp => (hsame p hp).2, ?_,
    fun _ _ => rfl⟩
  · obtain ⟨s, -, -, hstop, rfl⟩ := (hmem p).1 hp
    exact hstop
  · rw [List.pairwise_reverse, List.pairwise_map, ← hspans]
    exact pairwise_between _ _ _ _
  · obtain ⟨hplace, hlast⟩ := hsame _ List.getLastD_mem_cons
    rw [arrival_of_pass hrun.intercept_getLastD]
    exact (Host.lineStart_eq hplace).trans hlast

/-- Of the mentions before the cursor, the one that ends at it and the one in the line above are not
visited. -/
theorem home_visits_mentions_of_line_second :
    Legal '@' "@x\n@al@bob @cy".toList 14 ∧
    (∃ visited, Repeats {} "@x\n@al@bob @cy".toList .moveHome .standard 14 visited ∧
      ∀ p, p ∈ visited ↔ p = 6 ∨ p = 10) ∧
    lineStart "@x\n@al@bob @cy".toList 14 = 3 := by
  have hc : Legal '@' "@x\n@al@bob @cy".toList 14 := by decide
  have hscan : scan '@' "@x\n@al@bob @cy".toList = [⟨0, 2, "@x".toList⟩, ⟨3, 6, "@al".toList⟩,
    ⟨6, 10, "@bob".toList⟩, ⟨11, 14, "@cy".toList⟩] := by decide
  have horigin : lineStart "@x\n@al@bob @cy".toList 14 = 3 := by decide
  obtain ⟨before, line, after, visited, -, -, -, -, hrun, -, hmem, hsame, -, -⟩ :=
    home_visits_mentions_of_line {} .standard "@x\n@al@bob @cy".toList 14 hc
  have hbefore : units before = 3 := (hsame 14 List.mem_cons_self).symm.trans horigin
  refine ⟨hc, ⟨visited, hrun, fun p => ?_⟩, horigin⟩
  have hscan' : scan ({} : Config).marker "@x\n@al@bob @cy".toList = _ := hscan
  rw [hmem, hbefore, hscan']
  simp [eq_comm]

end Atomic

end Mentions
