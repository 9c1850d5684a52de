import Mentions.Proofs.Checked.Editing
import Mentions.Proofs.Overlay.Caret

/-!
# The overlay, checked

The segments of a buffer are cut out of it between the ends of mentions, and the caret is placed by
cutting out once more what is drawn before it. All these cuts are made at offsets that are known to
address places.

They do, because mentions start and end at places of the buffer (`segmentsFrom_eq`), and because the
cursor has been rounded down to one. Around a mention the walk takes differences of the cursor and
the ends of the mention. Those are not negative: the walk comes to a segment only if the cursor is
behind its start, and looks for the nearer end only if the cursor is before its end
(`afterSegment_eq`).

Measuring is left to the host, in whatever monad it takes place. `check` and `ask` put what is
checked and what is measured in a row, so that a walk that checks is the walk that measures
(`afterSegments_eq`).
-/

namespace Mentions.Checked

open Text Overlay

variable {marker : Char} {name? : Text → Option Text} {l r t : Text} {u v cursor : Nat}
  {spans : List Span} {seg : Segment} {segs : List Segment} {α : Type}

/-! ## Segments -/

/-- The segment of the text between two offsets that are known to be places. -/
def plain (buffer : Text) (start stop : Nat) : Checked (List Segment) := do
  if stop ≤ start then return []
  let first ← byteIndex buffer start >>= fun b => require b
  let last ← byteIndex buffer stop >>= fun b => require b
  let content := strip (← sliceBytes buffer first last)
  return if content.isEmpty then [] else [⟨.text, content, start, stop, none⟩]

/-- The segments of a buffer from an offset on, given the mentions after it. -/
def segmentsFrom (name? : Text → Option Text) (buffer : Text) (pos : Nat) :
    List Span → Checked (List Segment)
  | [] => do plain buffer pos (← countUnits buffer)
  | s :: rest => do
    let before ← plain buffer pos s.start
    let after ← segmentsFrom name? buffer s.stop rest
    return before ++ mention name? s :: after

/-- The segments of a buffer, from left to right. -/
def segments (marker : Char) (name? : Text → Option Text) (buffer : Text) :
    Checked (List Segment) := do
  segmentsFrom name? buffer 0 (← scan marker buffer)

/-- The text between two places in order is cut out of the buffer. -/
theorem sliceBytes_eq (h : Fits t) (hu : Addressable t u) (hv : Addressable t v) (huv : u ≤ v) :
    ∃ x first last, t.slice? u v = some x ∧
      (byteIndex t u >>= fun b => require b) = pure first ∧
      (byteIndex t v >>= fun b => require b) = pure last ∧ sliceBytes t first last = pure x := by
  obtain ⟨l, x, r, rfl, rfl, rfl⟩ := exists_append_append hu hv huv
  refine ⟨x, bytes l, bytes l + bytes x, slice?_append l x r, require_byteIndex h, ?_,
    sliceBytes_append l x r⟩
  rw [← List.append_assoc] at h ⊢
  rw [← units_append, ← bytes_append]
  exact require_byteIndex h

theorem plain_eq (h : Fits t) (hu : Addressable t u) (hv : Addressable t v) :
    plain t u v = pure (Overlay.plain t u v) := by
  rw [plain, Overlay.plain]
  by_cases huv : u < v
  · obtain ⟨x, first, last, hx, hfirst, hlast, hslice⟩ := sliceBytes_eq h hu hv (Nat.le_of_lt huv)
    rw [if_neg (Nat.not_le.2 huv), if_pos huv, hx, hfirst, pure_bind, hlast, pure_bind, hslice,
      pure_bind]
  · rw [if_pos (Nat.not_lt.1 huv), if_neg huv]

/-- The segments of the rest of a buffer are found. -/
theorem segmentsFrom_eq (h : Fits (l ++ t)) (hs : Scans marker (units l) t spans) :
    segmentsFrom name? (l ++ t) (units l) spans =
      pure (Overlay.segmentsFrom name? (l ++ t) (units l) spans) := by
  induction spans generalizing l t with
  | nil =>
    rw [segmentsFrom, Overlay.segmentsFrom, countUnits_eq h.units_le, pure_bind]
    exact plain_eq h (addressable_append l t) (addressable_units _)
  | cons s spans ih =>
    obtain ⟨g, b, r, rfl, -, rfl, hr⟩ := hs.exists_eq_of_cons
    have hlen : units l + units g + unitsOf marker + units b = units (l ++ (g ++ marker :: b)) := by
      simp only [units_append, units_cons]
      omega
    have hbuffer : l ++ (g ++ marker :: (b ++ r)) = l ++ (g ++ marker :: b) ++ r := by simp
    have hstart : Addressable (l ++ (g ++ marker :: (b ++ r))) (units l + units g) := by
      simpa using addressable_append (l ++ g) (marker :: (b ++ r))
    rw [segmentsFrom, Overlay.segmentsFrom, plain_eq h (addressable_append _ _) hstart, pure_bind]
    rw [hlen] at hr ⊢
    rw [hbuffer] at h ⊢
    rw [ih h hr, pure_bind]

/-- Finding the segments goes wrong nowhere. -/
theorem segments_eq (h : Fits t) (marker : Char) (name? : Text → Option Text) :
    segments marker name? t = pure (Segment.ofBuffer marker name? t) := by
  rw [segments, scan_eq h, pure_bind]
  exact segmentsFrom_eq (l := []) h (scans_scan marker t)

/-- The whole buffer as one segment of text, without a caret. -/
def raw (buffer : Text) : Checked (Layout α) := do
  let content := strip buffer
  if content.isEmpty then return ⟨[], none, true⟩
  return ⟨[⟨.text, content, 0, ← countUnits buffer, none⟩], none, true⟩

theorem raw_eq (h : Fits t) : raw t = pure (Layout.raw t : Layout α) := by
  rw [raw, Layout.raw]
  cases hcontent : (strip t).isEmpty with
  | true => rfl
  | false =>
    rw [countUnits_eq h.units_le]
    rfl

/-! ## Checking and measuring -/

variable {m : Type → Type} [Monad m]

section Lifts

variable {β γ : Type}

/-- A checked computation, where the host does something before and after it. -/
def within (m : Type → Type) [Monad m] (x : Checked β) : ExceptT Fault m β := ExceptT.mk (pure x)

/-- A checked computation, where something is measured before and after it. -/
def check (x : Checked β) : ExceptT (MeasureError α) (ExceptT Fault m) β := liftM (within m x)

/-- A measurement, where something is checked before and after it. -/
def ask (x : ExceptT (MeasureError α) m β) : ExceptT (MeasureError α) (ExceptT Fault m) β :=
  ExceptT.mk (liftM x.run)

theorem within_pure (b : β) : within m (pure b) = pure b := rfl

variable [LawfulMonad m]

/-- A computation that goes wrong nowhere is its result. -/
theorem check_pure (b : β) :
    check (pure b) = (pure b : ExceptT (MeasureError α) (ExceptT Fault m) β) :=
  liftM_pure b

theorem ask_pure (b : β) : ask (pure b : ExceptT (MeasureError α) m β) = pure b :=
  liftM_pure (Except.ok b)

/-- Measurements in a row. -/
theorem ask_bind (x : ExceptT (MeasureError α) m β) (f : β → ExceptT (MeasureError α) m γ) :
    ask (x >>= f) = ask x >>= fun b => ask (f b) := by
  refine ExceptT.ext ?_
  rw [ExceptT.run_bind]
  show liftM (x >>= f).run = _
  rw [ExceptT.run_bind, liftM_bind]
  refine bind_congr fun r => ?_
  cases r with
  | ok b => rfl
  | error e => exact liftM_pure (Except.error e)

end Lifts

/-! ## The caret -/

/-- Whether the caret is drawn after a mention, rather than before it, if the cursor is beyond the
mention's start. -/
def isBeyond (cursor : Nat) (seg : Segment) : Checked Bool :=
  match seg.span? with
  | some s =>
    if cursor < seg.stop then do
      let nearer ← nearerEnd s cursor
      return nearer = s.stop
    else return true
  | none => return true

variable [Extent α]

/-- The caret after the part of a segment that lies before the cursor. -/
def afterSegment (measure : Measure m α) (buffer : Text) (cursor : Nat) (caret : Caret α)
    (seg : Segment) : ExceptT (MeasureError α) (ExceptT Fault m) (Caret α) :=
  match seg.kind with
  | .text => do
    let first ← check (byteIndex buffer seg.start >>= fun b => require b)
    let last ← check (byteIndex buffer (min cursor seg.stop) >>= fun b => require b)
    let t ← check (sliceBytes buffer first last)
    ask (caret.afterText measure (strip t))
  | .mention => do
    if ← check (isBeyond cursor seg) then
      let w ← ask (measure.widthOf seg.content .mention)
      return caret.moveRight w
    else return caret

/-- The caret after those segments, and parts of segments, that lie before the cursor. -/
def afterSegments (measure : Measure m α) (buffer : Text) (cursor : Nat) (caret : Caret α) :
    List Segment → ExceptT (MeasureError α) (ExceptT Fault m) (Caret α)
  | [] => return caret
  | seg :: rest =>
    if cursor ≤ seg.start then return caret
    else do
      let caret ← afterSegment measure buffer cursor caret seg
      if cursor < seg.stop then return caret else afterSegments measure buffer cursor caret rest

/-- The caret for a cursor, which may be any number. -/
def place (measure : Measure m α) (buffer : Text) (segments : List Segment) (cursor : Nat) :
    ExceptT (MeasureError α) (ExceptT Fault m) (Caret α) := do
  let cursor ← check (floor buffer cursor)
  afterSegments measure buffer cursor Caret.origin segments

/-- A segment of text lies between two places of the buffer, and any other one is a mention. -/
def Sound (name? : Text → Option Text) (buffer : Text) (seg : Segment) : Prop :=
  seg.kind = .text ∧ Addressable buffer seg.start ∧ Addressable buffer seg.stop ∧
      seg.start ≤ seg.stop ∨
    ∃ s, seg = mention name? s

/-- The segments that the rules draw are sound. -/
theorem sound_of_draws (h : Draws marker name? 0 t spans segs) (hseg : seg ∈ segs) :
    Sound name? t seg := by
  cases hkind : seg.kind with
  | text =>
    obtain ⟨x, g, y, rfl, -, rfl⟩ := h.exists_eq_of_text hseg hkind
    have hstop : Addressable (x ++ (g ++ y)) (units x + units g) := by
      simpa using addressable_append (x ++ g) y
    rw [Nat.zero_add]
    exact .inl ⟨rfl, addressable_append _ _, hstop, Nat.le_add_right _ _⟩
  | mention =>
    have hmem : seg ∈ segs.filter (·.kind = .mention) :=
      List.mem_filter.2 ⟨hseg, decide_eq_true hkind⟩
    rw [h.filter_mention] at hmem
    obtain ⟨s, -, rfl⟩ := List.mem_map.1 hmem
    exact .inr ⟨s, rfl⟩

/-- The cursor is around the mention, or behind it. -/
theorem isBeyond_eq {s : Span} (h : s.start ≤ cursor) :
    isBeyond cursor (mention name? s) = pure (Caret.isBeyond cursor (mention name? s)) := by
  by_cases hin : cursor < s.stop
  · rw [Caret.isBeyond_mention hin]
    show (if cursor < s.stop then nearerEnd s cursor >>= fun nearer => _ else _) = _
    rw [if_pos hin, nearerEnd_eq h (Nat.le_of_lt hin), pure_bind]
  · rw [Caret.isBeyond_of_stop_le (Nat.le_of_not_lt hin)]
    exact if_neg hin

variable [LawfulMonad m] {measure : Measure m α} {caret : Caret α}

/-- The walk draws a segment that the cursor is behind the start of, and nothing goes wrong. -/
theorem afterSegment_eq (h : Fits t) (hcursor : Addressable t cursor) (hseg : Sound name? t seg)
    (hlt : seg.start < cursor) :
    ∃ x, caret.afterSegment measure t cursor seg = some <$> x ∧
      afterSegment measure t cursor caret seg = ask x := by
  rcases hseg with ⟨hkind, hstart, hstop, hle⟩ | ⟨s, rfl⟩
  · have hmin : Addressable t (min cursor seg.stop) := by
      rcases Nat.le_total cursor seg.stop with hc | hc
      · rwa [Nat.min_eq_left hc]
      · rwa [Nat.min_eq_right hc]
    obtain ⟨x, first, last, hx, hfirst, hlast, hslice⟩ := sliceBytes_eq h hstart hmin
      (Nat.le_min.2 ⟨Nat.le_of_lt hlt, hle⟩)
    refine ⟨caret.afterText measure (strip x), ?_, ?_⟩
    · simp only [Caret.afterSegment, hkind, hx]
    · simp only [afterSegment, hkind, hfirst, hlast, hslice, check_pure, pure_bind]
  · refine ⟨if Caret.isBeyond cursor (mention name? s) then do
        let w ← measure.widthOf (mention name? s).content .mention
        pure (caret.moveRight w)
      else pure caret, ?_, ?_⟩
    · rw [Caret.afterSegment_mention]
      split
      · simp only [map_bind, map_pure]
      · rw [map_pure]
    · show (check (isBeyond cursor (mention name? s)) >>= fun beyond => _) = _
      rw [isBeyond_eq (Nat.le_of_lt hlt), check_pure, pure_bind]
      split
      · simp only [ask_bind, ask_pure]
      · rw [ask_pure]

/-- The walk that checks is the walk that measures. -/
theorem afterSegments_eq (h : Fits t) (hcursor : Addressable t cursor)
    (hsegs : ∀ seg ∈ segs, Sound name? t seg) :
    afterSegments measure t cursor caret segs =
      ask (caret.afterSegments measure t cursor segs) := by
  induction segs generalizing caret with
  | nil => exact (ask_pure caret).symm
  | cons seg segs ih =>
    obtain ⟨hseg, htail⟩ := List.forall_mem_cons.1 hsegs
    rw [afterSegments, Caret.afterSegments]
    by_cases hstart : cursor ≤ seg.start
    · rw [if_pos hstart, if_pos hstart, ask_pure]
    · obtain ⟨x, hx, hask⟩ : ∃ x, caret.afterSegment measure t cursor seg = some <$> x ∧
          afterSegment measure t cursor caret seg = ask x :=
        afterSegment_eq h hcursor hseg (Nat.lt_of_not_le hstart)
      rw [if_neg hstart, if_neg hstart, hx, hask, bind_map_left, ask_bind]
      refine bind_congr fun next => ?_
      split
      · rw [ask_pure]
      · exact ih htail

/-- Placing the caret goes wrong for no cursor. -/
theorem place_eq (h : Fits t) (marker : Char) (name? : Text → Option Text) (measure : Measure m α)
    (cursor : Nat) :
    place measure t (Segment.ofBuffer marker name? t) cursor =
      ask (Caret.place measure t (Segment.ofBuffer marker name? t) cursor) := by
  rw [place, Caret.place, floor_eq h, check_pure, pure_bind]
  exact afterSegments_eq h (addressable_floor t cursor) fun seg =>
    sound_of_draws (draws_ofBuffer marker name? t)

/-! ## Layouts -/

/-- The layout of a buffer, or its raw text if it cannot be measured. -/
def layout (marker : Char) (name? : Text → Option Text) (measure : Measure m α) (buffer : Text)
    (cursor? : Option Nat) : ExceptT Fault m (Layout α) := do
  let segments ← within m (segments marker name? buffer)
  match cursor? with
  | none => return ⟨segments, none, false⟩
  | some cursor =>
    match ← (place measure buffer segments cursor).run with
    | .ok caret => return ⟨segments, some caret, false⟩
    | .error _ => within m (raw buffer)

/-- Making a layout goes wrong nowhere, whatever the host's measuring does. -/
theorem layout_eq (h : Fits t) (marker : Char) (name? : Text → Option Text) (measure : Measure m α)
    (cursor? : Option Nat) :
    (layout marker name? measure t cursor?).run =
      pure <$> Layout.make marker name? measure t cursor? := by
  rw [layout, segments_eq h, within_pure, pure_bind, Layout.make]
  cases cursor? with
  | none =>
    rw [Layout.attempt, ExceptT.run_pure, ExceptT.run_pure, map_pure, map_pure]
    rfl
  | some cursor =>
    simp only [place_eq h, raw_eq h, within_pure, Layout.attempt]
    rw [ExceptT.run_bind, ExceptT.run_bind, map_bind, map_bind]
    show (Except.ok <$> (Caret.place measure t _ cursor).run) >>= _ = _
    rw [bind_map_left]
    refine bind_congr fun result => ?_
    cases result with
    | ok caret =>
      simp only [ExceptT.run_pure, map_pure]
      rfl
    | error e =>
      simp only [ExceptT.run_pure, map_pure]
      rfl

end Mentions.Checked
