import Mathlib.Data.List.TakeWhile
import Mentions.Json.Reader
import Mentions.Json.Writer

/-!
# Strings and numbers that read back

A string is written character by character, so it reads back because each character does, whatever
follows it (`readCodes_escape`); the closing quote ends it, since a quote within is escaped. A
number has no closing mark: it reads back if what follows cannot go on with it (`NumberEnds`), part
by part, as each part ends where the next one starts (`readNumber_writeNumeral`).

Only a numeral that is spelled as JSON demands can do so (`Numeral.IsProper`). The decimal digits of
a natural number are such a spelling, and they spell that number (`Numeral.isProper_ofNat`,
`Numeral.natural?_ofNat`).
-/

namespace Mentions

/-! ## Numerals -/

namespace Numeral

/-- One digit or more and nothing else. -/
def IsDigits (ds : Text) : Prop := ds ≠ [] ∧ ∀ c ∈ ds, c.isDigit = true

/-- Digits with a text behind them start with a digit. -/
theorem IsDigits.isDigit_of_append_eq_cons {ds rest r : Text} {c : Char} (h : IsDigits ds)
    (heq : ds ++ rest = c :: r) : c.isDigit = true := by
  obtain ⟨d, ds, rfl⟩ := List.exists_cons_of_ne_nil h.1
  rw [← (List.cons.inj heq).1]
  exact h.2 d List.mem_cons_self

/-- A numeral that can be written: there are digits before the point, without a leading zero unless
it is the only one, and behind a point or in an exponent there are digits as well. -/
structure IsProper (n : Numeral) : Prop where
  whole : IsDigits n.whole
  no_leading_zero : n.whole.head? = some '0' → n.whole.length = 1
  fraction : n.fraction ≠ [] → IsDigits n.fraction
  exponent : ∀ e ∈ n.exponent?, IsDigits e.2

/-- Only zero starts with a zero. -/
theorem head?_toDigits_eq_zero {n : Nat} (h : (Nat.toDigits 10 n).head? = some '0') : n = 0 := by
  induction n using Nat.strongRecOn with
  | ind n ih =>
    rcases Nat.lt_or_ge n 10 with hlt | hge
    · rw [Nat.toDigits_of_lt_base hlt, List.head?_cons, Option.some.injEq] at h
      exact Nat.digitChar_eq_zero.1 h
    · have hne : Nat.toDigits 10 (n / 10) ≠ [] := Nat.toDigits_ne_nil
      obtain ⟨c, ds, hds⟩ := List.exists_cons_of_ne_nil hne
      rw [Nat.toDigits_of_base_le (by decide) hge, hds, List.cons_append, List.head?_cons] at h
      have hzero := ih (n / 10) (Nat.div_lt_self (by omega) (by decide)) (by rwa [hds])
      omega

theorem isProper_ofNat (n : Nat) : (ofNat n).IsProper where
  whole := ⟨Nat.toDigits_ne_nil, fun _ => Nat.isDigit_of_mem_toDigits (by decide) (by decide)⟩
  no_leading_zero h := by
    rw [ofNat, head?_toDigits_eq_zero h]
    rfl
  fraction h := absurd rfl h
  exponent := nofun

/-- The digits of a natural number spell it. -/
theorem natural?_ofNat (n : Nat) : (ofNat n).natural? = some n := by
  have hvalue : valueOf (Nat.toDigits 10 n) = n := by
    have hdigits := Nat.ofDigitChars_toDigits (b := 10) (n := n) (by decide) (by decide)
    rwa [Nat.ofDigitChars_eq_foldl] at hdigits
  exact congrArg some hvalue

end Numeral

namespace Json

open Numeral (IsDigits)

variable {c : Char} {rest ds : Text} {n : Numeral}

/-! ## Strings -/

/-- A character is no half of a surrogate pair. -/
theorem isHigh_toNat (c : Char) : isHigh c.toNat = false ∧ isLow c.toNat = false := by
  have hvalid : c.toNat < 0xD800 ∨ 0xDFFF < c.toNat ∧ c.toNat < 0x110000 := c.valid
  simp only [isHigh, isLow, Bool.and_eq_false_iff, decide_eq_false_iff_not]
  omega

/-- The code points of a text are joined to that text. -/
theorem joinCodes_map_toNat (t : Text) : joinCodes (t.map Char.toNat) = some t := by
  induction t with
  | nil => rfl
  | cons c t ih =>
    obtain ⟨hhigh, hlow⟩ := isHigh_toNat c
    rw [List.map_cons, joinCodes.eq_def]
    simp [hhigh, hlow, ih, Char.ofNat_toNat]

theorem hexDigit?_hexChar : ∀ n < 16, hexDigit? (hexChar n) = some n := by decide

/-- A control character is read from the code that it is written with. -/
theorem hexCode?_hexChar {n : Nat} (h : n < 0x20) :
    hexCode? '0' '0' (hexChar (n / 16)) (hexChar (n % 16)) = some n := by
  have hzero : hexDigit? '0' = some 0 := rfl
  simp only [hexCode?, hzero, hexDigit?_hexChar (n / 16) (by omega),
    hexDigit?_hexChar (n % 16) (by omega), Option.bind_eq_bind, Option.bind_some, Option.some.injEq]
  omega

/-- A character that stands for itself is read as it is. -/
theorem readCodes_plain (hquote : c ≠ '"') (hback : c ≠ '\\') (hcontrol : ¬c.toNat < 0x20)
    (rest : Text) :
    readCodes (c :: rest) = (readCodes rest).map fun p => (c.toNat :: p.1, p.2) := by
  rw [readCodes.eq_def]
  simp only [if_neg hquote, if_neg hback, if_neg hcontrol]
  cases readCodes rest <;> rfl

/-- A letter behind a backslash is read as what it stands for. -/
theorem readCodes_letter {k : Nat} (hu : c ≠ 'u') (hc : escapeCode? c = some k) (rest : Text) :
    readCodes ('\\' :: c :: rest) = (readCodes rest).map fun p => (k :: p.1, p.2) := by
  rw [readCodes.eq_def]
  simp only [Char.reduceEq, if_false, if_true, if_neg hu, hc]
  cases readCodes rest <;> rfl

/-- Four hexadecimal digits are read as their value. -/
theorem readCodes_hex {k : Nat} {c₁ c₂ c₃ c₄ : Char} (h : hexCode? c₁ c₂ c₃ c₄ = some k)
    (rest : Text) :
    readCodes ('\\' :: 'u' :: c₁ :: c₂ :: c₃ :: c₄ :: rest) =
      (readCodes rest).map fun p => (k :: p.1, p.2) := by
  rw [readCodes.eq_def]
  simp only [Char.reduceEq, if_false, if_true, h]
  cases readCodes rest <;> rfl

/-- A character is read back as it is written, and reading goes on behind it. -/
theorem readCodes_escape (c : Char) (rest : Text) :
    readCodes (escape c ++ rest) = (readCodes rest).map fun p => (c.toNat :: p.1, p.2) := by
  unfold escape
  -- seven characters have a letter of their own
  iterate 7
    split
    · next h => subst h; exact readCodes_letter (by decide) rfl rest
  split
  · next h => exact readCodes_hex (hexCode?_hexChar h) rest
  · next hquote hback _ _ _ _ _ hcontrol => exact readCodes_plain hquote hback hcontrol rest

/-- The characters of a text are read back up to the closing quote. -/
theorem readCodes_flatMap_escape (t rest : Text) :
    readCodes (t.flatMap escape ++ '"' :: rest) = some (t.map Char.toNat, rest) := by
  induction t with
  | nil =>
    rw [readCodes.eq_def]
    rfl
  | cons c t ih =>
    rw [List.flatMap_cons, List.append_assoc, readCodes_escape, ih]
    rfl

/-- A string is written with a quote first, and is read back from what follows it. -/
theorem exists_writeString_eq_cons (s : Option Text) :
    ∃ w, writeString s = '"' :: w ∧ ∀ rest, readString (w ++ rest) = some (s, rest) := by
  cases s with
  | none =>
    refine ⟨"\\ud800\"".toList, rfl, fun rest => ?_⟩
    have hcodes : readCodes ("\\ud800\"".toList ++ rest) = some ([0xD800], rest) := by
      have hcode : hexCode? 'd' '8' '0' '0' = some 0xD800 := rfl
      have hhalf := readCodes_hex hcode ('"' :: rest)
      have hend := readCodes_flatMap_escape [] rest
      rw [List.flatMap_nil, List.nil_append] at hend
      rw [hend] at hhalf
      exact hhalf
    rw [readString, hcodes]
    rfl
  | some t =>
    refine ⟨t.flatMap escape ++ ['"'], rfl, fun rest => ?_⟩
    rw [List.append_assoc, List.singleton_append, readString, readCodes_flatMap_escape]
    exact congrArg (fun x => some (x, rest)) (joinCodes_map_toNat t)

/-! ## Numbers -/

/-- What may stand behind a number: nothing that could go on with it. -/
def NumberEnds (rest : Text) : Prop :=
  ∀ c ∈ rest.head?, c.isDigit = false ∧ c ≠ '.' ∧ c ≠ 'e' ∧ c ≠ 'E'

theorem numberEnds_cons (h : c.isDigit = false ∧ c ≠ '.' ∧ c ≠ 'e' ∧ c ≠ 'E') (t : Text) :
    NumberEnds (c :: t) := by
  intro d hd
  obtain rfl : c = d := Option.some.inj hd
  exact h

/-- Digits are read back up to what is no digit. -/
theorem readDigits_append (hds : IsDigits ds) (hrest : ∀ c ∈ rest.head?, c.isDigit = false) :
    readDigits (ds ++ rest) = some (ds, rest) := by
  have htake : rest.takeWhile Char.isDigit = [] := by
    cases rest with
    | nil => rfl
    | cons c rest => exact List.takeWhile_cons_of_neg (by simp [hrest c rfl])
  have hdrop : rest.dropWhile Char.isDigit = rest := by
    cases rest with
    | nil => rfl
    | cons c rest => exact List.dropWhile_cons_of_neg (by simp [hrest c rfl])
  rw [readDigits, List.takeWhile_append_of_pos hds.2, List.dropWhile_append_of_pos hds.2, htake,
    hdrop, List.append_nil]
  cases ds with
  | nil => exact absurd rfl hds.1
  | cons => rfl

/-- The fraction as it is written. -/
def fractionText (ds : Text) : Text := if ds.isEmpty then [] else '.' :: ds

/-- The exponent as it is written. -/
def exponentText : Option (Bool × Text) → Text
  | none => []
  | some (negative, ds) => 'e' :: (if negative then ['-'] else []) ++ ds

theorem writeNumeral_eq (n : Numeral) :
    writeNumeral n = (if n.negative then ['-'] else []) ++
      (n.whole ++ (fractionText n.fraction ++ exponentText n.exponent?)) := by
  rw [writeNumeral, List.append_assoc, List.append_assoc]
  cases n.exponent? <;> rfl

/-- What follows a fraction goes on with no digits. -/
theorem head?_exponentText (h : NumberEnds rest) (e? : Option (Bool × Text)) :
    ∀ c ∈ (exponentText e? ++ rest).head?, c.isDigit = false ∧ c ≠ '.' := by
  cases e? with
  | none => exact fun c hc => ⟨(h c hc).1, (h c hc).2.1⟩
  | some e =>
    intro c hc
    obtain rfl : 'e' = c := Option.some.inj hc
    decide

/-- What follows the digits before the point goes on with no digits. -/
theorem head?_fractionText (h : ∀ c ∈ rest.head?, c.isDigit = false) (ds : Text) :
    ∀ c ∈ (fractionText ds ++ rest).head?, c.isDigit = false := by
  cases ds with
  | nil => exact h
  | cons d ds =>
    intro c hc
    obtain rfl : '.' = c := Option.some.inj hc
    decide

theorem readFraction_append (hds : ds ≠ [] → IsDigits ds)
    (hrest : ∀ c ∈ rest.head?, c.isDigit = false ∧ c ≠ '.') :
    readFraction (fractionText ds ++ rest) = some (ds, rest) := by
  cases ds with
  | nil =>
    rw [fractionText, if_pos List.isEmpty_nil, List.nil_append, readFraction.eq_def]
    split
    · exact absurd rfl (hrest '.' rfl).2
    · rfl
  | cons d ds => exact readDigits_append (hds nofun) fun c hc => (hrest c hc).1

theorem readExponent_append {e? : Option (Bool × Text)} (he : ∀ e ∈ e?, IsDigits e.2)
    (hrest : NumberEnds rest) : readExponent (exponentText e? ++ rest) = some (e?, rest) := by
  have hend : ∀ c ∈ rest.head?, c.isDigit = false := fun c hc => (hrest c hc).1
  cases e? with
  | none =>
    rw [exponentText, List.nil_append]
    cases rest with
    | nil => rfl
    | cons c r =>
      obtain ⟨-, -, hlower, hupper⟩ := hrest c rfl
      rw [readExponent.eq_def]
      exact if_neg (by simp [hlower, hupper])
  | some e =>
    obtain ⟨negative, ds⟩ := e
    have hds := he _ rfl
    cases negative with
    | true =>
      show (readDigits (ds ++ rest)).map _ = _
      rw [readDigits_append hds hend]
      rfl
    | false =>
      show readExponent ('e' :: (ds ++ rest)) = _
      rw [readExponent.eq_def]
      simp only [decide_true, Bool.true_or, if_true]
      split
      · next r heq => exact absurd (hds.isDigit_of_append_eq_cons heq) (by decide)
      · next r heq => exact absurd (hds.isDigit_of_append_eq_cons heq) (by decide)
      · rw [readDigits_append hds hend]
        rfl

/-- A number is read back if what follows does not go on with it. -/
theorem readNumber_writeNumeral (h : n.IsProper) (hrest : NumberEnds rest) :
    readNumber (writeNumeral n ++ rest) = some (n, rest) := by
  obtain ⟨negative, whole, fraction, e?⟩ := n
  have hend := head?_exponentText hrest e?
  have hwhole := readDigits_append h.whole
    (head?_fractionText (fun c hc => (hend c hc).1) fraction)
  have hunsigned : ∀ sign, readUnsigned sign
      (whole ++ (fractionText fraction ++ (exponentText e? ++ rest))) =
        some (⟨sign, whole, fraction, e?⟩, rest) := by
    intro sign
    have hzero : ¬((whole.head? = some '0' && whole.length ≠ 1) = true) := by
      simpa using h.no_leading_zero
    simp only [readUnsigned, Option.bind_eq_bind]
    rw [hwhole, Option.bind_some]
    simp only [if_neg hzero]
    rw [readFraction_append h.fraction hend, Option.bind_some]
    rw [readExponent_append h.exponent hrest, Option.bind_some]
  rw [writeNumeral_eq]
  simp only [List.append_assoc]
  cases negative with
  | true => exact hunsigned true
  | false =>
    rw [if_neg Bool.false_ne_true, List.nil_append, readNumber.eq_def]
    split
    · next r heq => exact absurd (h.whole.isDigit_of_append_eq_cons heq) (by decide)
    · exact hunsigned false

end Json

end Mentions
