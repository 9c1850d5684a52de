import Mentions.Proofs.Host

/-!
# Movements never stop inside a mention

`Moves` lists what may become of a movement: the library takes the cursor to a legal position on the
side that the movement goes to, or the host's own landing is legal. Each of the six functions that
decide a movement keeps to it, so `intercept_moves` holds of every movement from any place of the
buffer, one inside a mention included, and over every segmenter. The position after a movement is
then legal whichever of the two makes it, and so is every position of a run of movements:
`movement_is_atomic`.
-/

namespace Mentions

open Text

variable {m : Char} {t : Text} {u c : Nat} {s : Span} {spans : List Span} {side : Nat → Prop}
  {config : Config} {intent : Intent} {words : Word.Segmenter}

/-- Whether an edit only moves the cursor. -/
def Intent.isMovement : Intent → Bool
  | .moveLeft _ | .moveRight _ | .moveHome | .moveEnd => true
  | .deleteBackward _ | .deleteForward _ | .insertChar _ => false

/-- The positions on the side of the cursor that a movement goes to. -/
def Intent.Toward (cursor : Nat) : Intent → Nat → Prop
  | .moveLeft _, c | .moveHome, c => c < cursor
  | .moveRight _, c | .moveEnd, c => cursor < c
  | .deleteBackward _, _ | .deleteForward _, _ | .insertChar _, _ => False

namespace Atomic

/-- Where the cursor is after a movement: at the new cursor if the library takes it over, and else
where the host itself takes it. -/
def arrival (config : Config) (buffer : Text) (cursor : Nat) (intent : Intent)
    (words : Word.Segmenter) : Nat :=
  let o := intercept config buffer cursor intent words
  if o.intercepted then o.cursor?.getD cursor else Host.landing buffer cursor intent words

theorem arrival_of_moveTo (h : intercept config t u intent words = .moveTo c) :
    arrival config t u intent words = c := by
  rw [arrival, h]
  rfl

theorem arrival_of_pass (h : intercept config t u intent words = .pass) :
    arrival config t u intent words = Host.landing t u intent words := by
  rw [arrival, h]
  rfl

/-- Where the cursor is after each of a list of movements. -/
def walk (config : Config) (buffer : Text) (cursor : Nat) (moves : List Intent)
    (words : Word.Segmenter) : List Nat :=
  match moves with
  | [] => []
  | i :: rest =>
    let next := arrival config buffer cursor i words
    next :: walk config buffer next rest words

/-- What may become of a movement to one side, where the host's own landing is `host`. -/
inductive Moves (m : Char) (buffer : Text) (side : Nat → Prop) (host : Nat) : Outcome → Prop
  /-- The cursor is taken to a legal position on the side. -/
  | jumps {c : Nat} (hc : Legal m buffer c) (hside : side c) : Moves m buffer side host (.moveTo c)
  /-- The host takes the cursor to a legal position. -/
  | passes (hhost : Legal m buffer host) : Moves m buffer side host .pass

/-! ## To the left -/

theorem mem_of_ahead?_eq_some (h : ahead? spans u = some s) :
    s ∈ spans ∧ s.start < u ∧ u ≤ s.stop := by
  rw [ahead?] at h
  exact ⟨List.mem_of_find?_eq_some h, by simpa using List.find?_some h⟩

/-- No mention ends at the cursor or is around it, if none is ahead. -/
theorem ahead?_eq_none_iff : ahead? spans u = none ↔ ∀ s ∈ spans, s.start < u → s.stop < u := by
  simp [ahead?]

/-- One character to the left. -/
theorem moveLeft_moves (hu : Addressable t u) :
    Moves m t (· < u) (Widget.before ⟨t, u, none⟩) (moveLeft (scan m t) u) := by
  rw [moveLeft]
  split
  · next s h =>
    obtain ⟨hs, hlt, -⟩ := mem_of_ahead?_eq_some h
    exact .jumps (legal_start hs) hlt
  · next h => exact .passes (Host.legal_before_of_forall hu (ahead?_eq_none_iff.1 h)).1

/-- One word to the left. -/
theorem wordLeft_moves (hu : Addressable t u) :
    Moves m t (· < u) ((words.backward.previousStart? t u).getD u)
      (wordLeft t (scan m t) u words) := by
  rw [wordLeft]
  split
  · next s h =>
    obtain ⟨hs, hlt, -⟩ := mem_of_ahead?_eq_some h
    exact .jumps (legal_start hs) hlt
  next hahead =>
  split
  · next s h =>
    obtain ⟨hs, hlt⟩ := Host.mem_of_previousStart? words.backward hu h
    exact .jumps (legal_start hs) hlt
  · next h =>
    have hcur : Legal m t u := legal_of_forall hu fun s hs h1 h2 => by
      have := ahead?_eq_none_iff.1 hahead s hs h1
      omega
    exact .passes (Host.legal_previousStart? words.backward hcur h)

/-- To the start of the line. -/
theorem moveHome_moves (hm : '\n' ≠ m) (hu : Addressable t u) :
    Moves m t (· < u) (Host.lineStart t u) (moveHome t (scan m t) u) := by
  rw [moveHome]
  split
  · next s h =>
    obtain ⟨hs, hbounds⟩ := List.mem_filter.1 (List.mem_of_getLast? h)
    simp only [Bool.and_eq_true, decide_eq_true_eq] at hbounds
    exact .jumps (legal_stop hs) hbounds.2
  split
  · next s h =>
    obtain ⟨hs, hlt, -⟩ := Span.mem_of_around?_eq_some h
    exact .jumps (legal_start hs) hlt
  · exact .passes (Host.legal_lineStart hm hu).1

/-! ## To the right -/

/-- One character to the right. -/
theorem moveRight_moves (hu : Addressable t u) :
    Moves m t (u < ·) (Widget.past ⟨t, u, none⟩) (moveRight t (scan m t) u) := by
  unfold moveRight
  extract_lets landing
  have hle : u ≤ landing := by
    simp only [landing]
    split <;> simp
  split
  · next s h =>
    have hb := List.find?_some h
    simp only [Bool.and_eq_true, decide_eq_true_eq] at hb
    exact .jumps (legal_stop (List.mem_of_find?_eq_some h)) hb.2
  · next h =>
    rw [List.find?_eq_none] at h
    simp only [Bool.and_eq_true, decide_eq_true_eq, not_and, Nat.not_lt] at h
    have hpast : ∀ s ∈ scan m t, s.start ≤ u → s.stop ≤ u := by
      intro s hs hsu
      exact h s hs (Nat.le_trans hsu hle)
    exact .passes (Host.legal_past_of_forall hu hpast).1

/-- One word to the right. -/
theorem wordRight_moves (hu : Addressable t u) :
    Moves m t (u < ·) ((words.forward.nextEnd? t u).getD u) (wordRight t (scan m t) u words) := by
  rw [wordRight]
  split
  · next s h =>
    have hb := List.find?_some h
    simp only [Bool.and_eq_true, decide_eq_true_eq] at hb
    exact .jumps (legal_stop (List.mem_of_find?_eq_some h)) hb.2
  next hnone =>
  split
  · next s h =>
    obtain ⟨hs, hlt⟩ := Host.mem_of_nextEnd? words.forward hu h
    exact .jumps (legal_stop hs) hlt
  · next h =>
    rw [List.find?_eq_none] at hnone
    simp only [Bool.and_eq_true, decide_eq_true_eq, not_and, Nat.not_lt] at hnone
    have hcur : Legal m t u := legal_of_forall hu fun s hs h1 h2 => by
      have := hnone s hs (Nat.le_of_lt h1)
      omega
    exact .passes (Host.legal_nextEnd? words.forward hcur h)

/-- To the end of the line. -/
theorem moveEnd_moves (hu : Addressable t u) :
    Moves m t (u < ·) (Host.lineEnd t u) (moveEnd (scan m t) u) := by
  rw [moveEnd]
  split
  · next s h =>
    obtain ⟨hs, -, hlt⟩ := Span.mem_of_around?_eq_some h
    exact .jumps (legal_stop hs) hlt
  · exact .passes (Host.legal_lineEnd hu).1

/-! ## Every movement -/

/-- What the library decides about a movement keeps to the rules above. -/
theorem intercept_moves (words : Word.Segmenter) (hv : config.validate = .ok ())
    (hu : Addressable t u) (hi : intent.isMovement = true) :
    Moves config.marker t (intent.Toward u) (Host.landing t u intent words)
      (intercept config t u intent words) := by
  rw [Host.intercept_of_addressable hu]
  have hm := Config.marker_ne_newline hv
  cases intent with
  | moveHome => exact moveHome_moves hm hu
  | moveEnd => exact moveEnd_moves hu
  | moveLeft mods =>
    obtain ⟨ctrl, command⟩ := mods
    cases command with
    | true => exact moveHome_moves hm hu
    | false =>
      cases ctrl with
      | true => exact wordLeft_moves hu
      | false => exact moveLeft_moves hu
  | moveRight mods =>
    obtain ⟨ctrl, command⟩ := mods
    cases command with
    | true => exact moveEnd_moves hu
    | false =>
      cases ctrl with
      | true => exact wordRight_moves hu
      | false => exact moveRight_moves hu
  | deleteBackward _ | deleteForward _ | insertChar _ => cases hi

/-- A movement ends at a legal position. -/
theorem legal_arrival (words : Word.Segmenter) (hv : config.validate = .ok ())
    (hu : Addressable t u) (hi : intent.isMovement = true) :
    Legal config.marker t (arrival config t u intent words) := by
  have h := intercept_moves words hv hu hi
  rw [arrival]
  generalize intercept config t u intent words = o at h
  cases h with
  | jumps hc _ => exact hc
  | passes hhost => exact hhost

/-- Every position of a run of movements after the first is legal. -/
theorem legal_of_mem_walk (hv : config.validate = .ok ()) {moves : List Intent}
    (hm : ∀ i ∈ moves, i.isMovement = true) (hu : Addressable t u) :
    ∀ c ∈ walk config t u moves words, Legal config.marker t c := by
  induction moves generalizing u with
  | nil => exact fun c hc => nomatch hc
  | cons i rest ih =>
    obtain ⟨hi, hrest⟩ := List.forall_mem_cons.1 hm
    have hlegal := legal_arrival words hv hu hi
    rw [walk]
    exact List.forall_mem_cons.2 ⟨hlegal, ih hrest hlegal.1⟩

/-- **A movement never stops inside a mention**, whether the library makes it or leaves it to the
host, and from wherever it starts, whatever the words are. What the library makes changes no text
and goes strictly to its side. So the cursor is in no mention's interior after any number of
movements. -/
theorem movement_is_atomic (config : Config) (words : Word.Segmenter) (buffer : Text)
    (cursor : Nat) (hv : config.validate = .ok ()) (hc : Addressable buffer cursor) :
    (∀ intent : Intent, intent.isMovement = true →
      Legal config.marker buffer (arrival config buffer cursor intent words) ∧
      let o := intercept config buffer cursor intent words
      (o.intercepted = true →
        o.buffer? = none ∧ ∃ c, o.cursor? = some c ∧ intent.Toward cursor c)) ∧
    ∀ moves : List Intent, (∀ i ∈ moves, i.isMovement = true) →
      ∀ c ∈ walk config buffer cursor moves words, Legal config.marker buffer c := by
  constructor
  · intro intent hi
    refine ⟨legal_arrival words hv hc hi, ?_⟩
    have h := intercept_moves words hv hc hi
    generalize intercept config buffer cursor intent words = o at h
    intro o' ho
    cases h with
    | jumps _ hside => exact ⟨rfl, _, rfl, hside⟩
    | passes _ => cases ho
  · intro moves hm
    exact legal_of_mem_walk hv hm hc

/-- A cursor inside a mention leaves it with the first step; one at the end of the line goes back to
the end of the mention before it. -/
theorem movement_is_atomic_inside :
    ({} : Config).validate = .ok () ∧ Addressable "cc @user-123 ok".toList 6 ∧
    walk {} "cc @user-123 ok".toList 6 [.moveRight {}, .moveRight ⟨true, false⟩, .moveHome]
      .standard = [12, 15, 12] ∧
    ∀ c ∈ [12, 15, 12], Legal '@' "cc @user-123 ok".toList c := by
  have hv : ({} : Config).validate = .ok () := by decide
  have hc : Addressable "cc @user-123 ok".toList 6 := by decide
  have hw : walk {} "cc @user-123 ok".toList 6
      [.moveRight {}, .moveRight ⟨true, false⟩, .moveHome] .standard = [12, 15, 12] := by
    decide +kernel
  have h := (movement_is_atomic {} .standard "cc @user-123 ok".toList 6 hv hc).2
    [.moveRight {}, .moveRight ⟨true, false⟩, .moveHome] (by decide)
  rw [hw] at h
  exact ⟨hv, hc, hw, h⟩

end Atomic

end Mentions
