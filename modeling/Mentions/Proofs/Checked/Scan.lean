import Mathlib.Data.List.Induction
import Mentions.Proofs.Checked.Offsets
import Mentions.Proofs.Scan.Rules

/-!
# The scan, checked

The body after a marker is found in the bytes of the text: its characters are counted, and full
stops and hyphens at its end are released by reading single bytes from the right. This reads
characters, since those of a body take one byte each (`release_eq`).

The scan itself is a loop. Its state is the place behind what has been read (`Place.behind`), in
bytes and in units. Each turn goes to the next marker, and then behind it or behind the mention that
it opens (`turn_cons`); so the place is again that behind a left part of the buffer, and each turn
leaves less behind it. It follows by induction that the loop ends, and with the mentions of the
buffer (`scanFrom_behind`).
-/

namespace Mentions.Checked

open Text

variable {m c : Char} {b l r t w x : Text}

/-! ## Bytes -/

/-- The bytes of a text. -/
def encode (t : Text) : List UInt8 := t.flatMap String.utf8EncodeChar

/-- The byte at an index, read as a character. -/
def byteAt (bytes : List UInt8) (i : Nat) : Checked Char :=
  match bytes[i]? with
  | some byte => pure (Char.ofNat byte.toNat)
  | none => throw .index

theorem encode_append (l r : Text) : encode (l ++ r) = encode l ++ encode r :=
  List.flatMap_append

/-- A body character is encoded as one byte. -/
theorem utf8Size_of_isBodyChar (h : isBodyChar c = true) : c.utf8Size = 1 := by
  have hlt := toNat_lt_of_isBodyChar h
  exact Char.utf8Size_eq_one_iff.2 (UInt32.le_iff_toNat_le.2 (Nat.le_of_lt_succ hlt))

/-- A run of body characters has as many bytes as characters. -/
theorem bytes_eq_length (h : ∀ c ∈ w, isBodyChar c = true) : bytes w = w.length := by
  induction w with
  | nil => rfl
  | cons c w ih =>
    obtain ⟨hc, hw⟩ := List.forall_mem_cons.1 h
    rw [bytes_cons, utf8Size_of_isBodyChar hc, ih hw, List.length_cons, Nat.add_comm]

theorem length_encode (t : Text) : (encode t).length = bytes t := by
  induction t with
  | nil => rfl
  | cons c t ih =>
    rw [bytes_cons, ← ih, ← String.length_utf8EncodeChar]
    exact List.length_append

/-- The byte of a body character is the character. -/
theorem byteAt_append (hw : ∀ c ∈ w, isBodyChar c = true) (hc : isBodyChar c = true) (r : Text) :
    byteAt (encode (w ++ c :: r)) w.length = pure c := by
  have hlen : (encode w).length = w.length := by rw [length_encode, bytes_eq_length hw]
  have hbyte : (encode (w ++ c :: r))[w.length]? = some c.val.toUInt8 := by
    rw [encode_append, ← hlen, List.getElem?_append_right (Nat.le_refl _), Nat.sub_self]
    show (String.utf8EncodeChar c ++ encode r)[0]? = _
    rw [String.utf8EncodeChar_eq_singleton (utf8Size_of_isBodyChar hc)]
    rfl
  have hval : c.val.toUInt8.toNat = c.toNat := by
    rw [UInt32.toNat_toUInt8]
    exact Nat.mod_eq_of_lt (Nat.lt_trans (toNat_lt_of_isBodyChar hc) (by decide))
  rw [byteAt, hbyte]
  show pure (Char.ofNat c.val.toUInt8.toNat) = _
  rw [hval, Char.ofNat_toNat]

/-! ## Bodies -/

/-- Shortens a run of `n` characters by those at its end that cannot end a body. -/
def release (bytes : List UInt8) : Nat → Checked Nat
  | 0 => pure 0
  | n + 1 => do
    let last ← byteAt bytes (← sub (n + 1) 1)
    if isWordChar last then pure (n + 1) else release bytes n

/-- The length of the longest body at the head of a text that has at most `limit` characters. -/
def bodyLength (t : Text) (limit : Nat) : Checked Nat :=
  release (encode t) ((t.take limit).takeWhile isBodyChar).length

/-- A run of body characters is shortened to its last word character. -/
theorem release_eq (hw : ∀ c ∈ w, isBodyChar c = true) (r : Text) :
    release (encode (w ++ r)) w.length = pure (takeThrough isWordChar w).length := by
  induction w using List.reverseRecOn generalizing r with
  | nil => rfl
  | append_singleton w c ih =>
    obtain ⟨hw, hc⟩ := List.forall_mem_append.1 hw
    have hsplit : w ++ [c] ++ r = w ++ c :: r := by simp
    rw [List.length_append, List.length_singleton, release, sub_eq (Nat.le_add_left 1 _), pure_bind,
      Nat.add_sub_cancel, hsplit, byteAt_append hw (hc c List.mem_cons_self), pure_bind]
    cases hword : isWordChar c with
    | true =>
      rw [if_pos rfl, takeThrough_concat hword, List.length_append, List.length_singleton]
    | false =>
      have hlast : ∀ d ∈ [c], isWordChar d = false := by
        intro d hd
        rwa [List.mem_singleton.1 hd]
      rw [if_neg Bool.false_ne_true, ih hw, takeThrough_append hlast]

/-- Reading the bytes of a text finds its longest body. -/
theorem bodyLength_eq (t : Text) (limit : Nat) :
    bodyLength t limit = pure (Mentions.bodyLength t limit) := by
  have hsplit : t = (t.take limit).takeWhile isBodyChar ++
      ((t.take limit).dropWhile isBodyChar ++ t.drop limit) := by
    rw [← List.append_assoc, List.takeWhile_append_dropWhile, List.take_append_drop]
  have hrelease := release_eq (w := (t.take limit).takeWhile isBodyChar)
    (fun _ => List.mem_takeWhile_imp) ((t.take limit).dropWhile isBodyChar ++ t.drop limit)
  rw [← hsplit] at hrelease
  exact hrelease

/-- A limit that no text exceeds is none. -/
theorem bodyLength_maxOffset (h : Fits t) : bodyLength t maxOffset = pure (body t).length := by
  have hlen : t.length ≤ maxOffset := Nat.le_trans (length_le_bytes t) h
  rw [bodyLength_eq, Mentions.bodyLength, List.take_of_length_le hlen]

/-! ## One turn of the scan -/

/-- A place in a buffer. -/
structure Place where
  byte : Nat
  unit : Nat
  deriving DecidableEq, Repr

/-- The place behind a left part. -/
def Place.behind (l : Text) : Place := ⟨bytes l, units l⟩

/-- What a turn of the scan comes to, and where it goes on. -/
inductive Turn
  /-- No marker is left. -/
  | done
  /-- The marker opens no mention. -/
  | pass (next : Place)
  | found (s : Span) (next : Place)
  deriving DecidableEq, Repr

/-- The byte index of the first occurrence of a character. -/
def find (c : Char) (t : Text) : Option Nat :=
  if c ∈ t then some (bytes (t.takeWhile (· ≠ c))) else none

/-- One turn of the scan: from a place to the next marker and what it opens. -/
def turn (m : Char) (buffer : Text) (p : Place) : Checked Turn := do
  let rest ← dropBytes buffer p.byte
  let some n := find m rest | return .done
  let markerByte ← add p.byte n
  let markerUnit ← add p.unit (← countUnits (← takeBytes rest n))
  let bodyByte ← add markerByte m.utf8Size
  let bodyUnit ← add markerUnit (unitsOf m)
  let length ← bodyLength (← dropBytes buffer bodyByte) maxOffset
  if length = 0 then return .pass ⟨bodyByte, bodyUnit⟩
  let stopByte ← add bodyByte length
  let stopUnit ← add bodyUnit length
  let text ← sliceBytes buffer markerByte stopByte
  return .found ⟨markerUnit, stopUnit, text⟩ ⟨stopByte, stopUnit⟩

theorem find_eq_none (h : c ∉ t) : find c t = none := if_neg h

theorem find_append (h : c ∉ x) (t : Text) : find c (x ++ c :: t) = some (bytes x) := by
  have hx : ∀ d ∈ x, decide (d ≠ c) = true := by
    intro d hd
    refine decide_eq_true ?_
    rintro rfl
    exact h hd
  rw [find, if_pos (List.mem_append_right _ List.mem_cons_self), List.takeWhile_append_of_pos hx,
    List.takeWhile_cons_of_neg (by simp), List.append_nil]

/-- The turn behind the last marker, for which the offset in units does not matter. -/
theorem turn_of_not_mem (h : m ∉ t) (u : Nat) : turn m (l ++ t) ⟨bytes l, u⟩ = pure .done := by
  rw [turn]
  simp only [dropBytes_append, pure_bind, find_eq_none h]

/-- A turn goes behind the next marker, or behind the mention that it opens. -/
theorem turn_cons (h : Fits (l ++ (x ++ m :: t))) (hx : m ∉ x) :
    turn m (l ++ (x ++ m :: t)) (.behind l) =
      pure (if body t = [] then .pass (.behind (l ++ x ++ [m]))
        else .found ⟨units (l ++ x), units (l ++ x ++ [m] ++ body t), m :: body t⟩
          (.behind (l ++ x ++ [m] ++ body t))) := by
  obtain ⟨r, ht, -⟩ := exists_body_append t
  have hbody : ∀ c ∈ body t, isBodyChar c = true := fun c hc =>
    (isBody_body (List.ne_nil_of_mem hc)).chars c hc
  -- every place that the turn comes by is behind a left part of the buffer
  have hall : Fits (l ++ x ++ [m] ++ body t ++ r) := by simpa [← ht] using h
  have hmention := hall.left
  have hopen := hmention.left
  have hmarker := hopen.left
  have hcount : countUnits x = pure (units x) := countUnits_eq hmarker.right.units_le
  have hbodyByte : add (bytes (l ++ x)) m.utf8Size = pure (bytes (l ++ x ++ [m])) :=
    add_bytes hopen
  have hbodyUnit : add (units (l ++ x)) (unitsOf m) = pure (units (l ++ x ++ [m])) :=
    add_units hopen
  have hrest : dropBytes (l ++ (x ++ m :: t)) (bytes (l ++ x ++ [m])) = pure t := by
    simpa using dropBytes_append (l ++ x ++ [m]) t
  have hlength : bodyLength t maxOffset = pure (body t).length := by
    refine bodyLength_maxOffset (Fits.right (l := l ++ x ++ [m]) ?_)
    simpa using h
  have hstopByte := add_bytes hmention
  have hstopUnit := add_units hmention
  have htext : sliceBytes (l ++ (x ++ m :: t)) (bytes (l ++ x)) (bytes (l ++ x ++ [m] ++ body t)) =
      pure (m :: body t) := by
    have hslice := sliceBytes_append (l ++ x) (m :: body t) r
    rw [← bytes_append] at hslice
    simpa [← ht] using hslice
  rw [bytes_eq_length hbody] at hstopByte
  rw [units_eq_length hbody] at hstopUnit
  rw [turn, Place.behind]
  simp only [dropBytes_append, find_append hx, takeBytes_append, hcount, add_bytes hmarker,
    add_units hmarker, hbodyByte, hbodyUnit, hrest, hlength, pure_bind]
  by_cases hnil : body t = []
  · rw [if_pos (List.length_eq_zero_iff.2 hnil), if_pos hnil]
    rfl
  · rw [if_neg (mt List.length_eq_zero_iff.1 hnil), if_neg hnil]
    simp only [hstopByte, hstopUnit, htext, pure_bind]
    rfl

/-! ## The loop -/

/-- The turns of the scan from a place on, so many at most. -/
def scanFrom (m : Char) (buffer : Text) : (turns : Nat) → Place → Checked (List Span)
  | 0, _ => throw .endless
  | n + 1, p => do
    match ← turn m buffer p with
    | .done => return []
    | .pass p => scanFrom m buffer n p
    | .found s p => return s :: (← scanFrom m buffer n p)

/-- The mentions of a buffer, from left to right. -/
def scan (m : Char) (buffer : Text) : Checked (List Span) :=
  scanFrom m buffer (buffer.length + 1) ⟨0, 0⟩

/-- The next marker opens no mention. -/
theorem scanFrom_pass (hx : m ∉ x) (ht : body t = []) :
    Mentions.scanFrom m (units l) 0 (x ++ m :: t) =
      Mentions.scanFrom m (units (l ++ x ++ [m])) 0 t := by
  refine scans_iff.1 (.append_left (fun _ hc => ne_of_mem_of_not_mem hc hx) ?_)
  refine .pass (fun _ => body_eq_nil_iff.1 ht) ?_
  simpa [Nat.add_assoc] using scans_scanFrom m (units (l ++ x ++ [m])) t

/-- The next marker opens a mention. -/
theorem scanFrom_found (hx : m ∉ x) (hb : IsBody b) (hr : Released r) :
    Mentions.scanFrom m (units l) 0 (x ++ m :: (b ++ r)) =
      ⟨units (l ++ x), units (l ++ x ++ [m] ++ b), m :: b⟩ ::
        Mentions.scanFrom m (units (l ++ x ++ [m] ++ b)) 0 r := by
  refine scans_iff.1 (.append_left (fun _ hc => ne_of_mem_of_not_mem hc hx) ?_)
  have hmention := Scans.mention hb hr
    (scans_scanFrom m (units (l ++ x) + unitsOf m + units b) r)
  simpa [Nat.add_assoc] using hmention

/-- The loop ends, and lists the mentions behind the place where it starts. -/
theorem scanFrom_behind (h : Fits (l ++ t)) {n : Nat} (hn : t.length < n) :
    scanFrom m (l ++ t) n (.behind l) = pure (Mentions.scanFrom m (units l) 0 t) := by
  induction n generalizing l t with
  | zero => exact absurd hn (Nat.not_lt_zero _)
  | succ n ih =>
    rw [scanFrom]
    by_cases hm : m ∈ t
    · obtain ⟨x, y, rfl, hx⟩ := List.eq_append_cons_of_mem hm
      rw [List.length_append, List.length_cons] at hn
      rw [turn_cons h hx, pure_bind]
      by_cases hy : body y = []
      · have hbuffer : l ++ (x ++ m :: y) = l ++ x ++ [m] ++ y := by simp
        rw [if_pos hy, scanFrom_pass hx hy]
        rw [hbuffer] at h ⊢
        exact ih h (by omega)
      · obtain ⟨r, hsplit, hr⟩ := exists_body_append y
        have hbuffer : l ++ (x ++ m :: y) = l ++ x ++ [m] ++ body y ++ r := by
          simp [← hsplit]
        have hshort : r.length ≤ y.length := by
          rw [hsplit, List.length_append]
          exact Nat.le_add_left _ _
        have hfound := scanFrom_found (l := l) hx (isBody_body hy) hr
        rw [← hsplit] at hfound
        rw [if_neg hy, hfound]
        rw [hbuffer] at h ⊢
        simp only [ih h (by omega), pure_bind]
    · rw [Place.behind, turn_of_not_mem hm, pure_bind, scanFrom_of_not_mem hm]

/-- The scan of a text that fits goes wrong nowhere. -/
theorem scan_eq (h : Fits t) (m : Char) : scan m t = pure (Mentions.scan m t) :=
  scanFrom_behind (l := []) h (Nat.lt_succ_self _)

end Mentions.Checked
