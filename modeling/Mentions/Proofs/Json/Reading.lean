import Mentions.Proofs.Json.Token

/-!
# Values that read back

`read_write` says that a value is read back from its text, if its numbers are spelled as they should
be (`IsProper`). The reader takes a number of steps, of which each character needs at most two, and
so it is proved for any number that is enough for the text, by induction on it (`ReadsBack`): with
one step more, a value is told apart by its first character, and the items or members of an array or
object are read one by one, each up to the comma or the closing bracket behind it.

In the text of a value no gap is left between two tokens, and no value starts with one
(`exists_write_eq_cons`).
-/

namespace Mentions.Json

variable {c : Char} {rest : Text} {j : Json} {js : List Json} {steps : Nat}
  {ms : List (Option Text × Json)}

/-! ## Proper values -/

mutual

/-- Whether every number within a value is spelled as it should be. -/
def IsProper : Json → Prop
  | .number n => n.IsProper
  | .array items => AreProper items
  | .object members => HaveProper members
  | _ => True

/-- Whether all values of a list are proper. -/
def AreProper : List Json → Prop
  | [] => True
  | j :: rest => IsProper j ∧ AreProper rest

/-- Whether all values of an object's members are proper. -/
def HaveProper : List (Option Text × Json) → Prop
  | [] => True
  | (_, j) :: rest => IsProper j ∧ HaveProper rest

end

/-! ## First characters -/

theorem skipGap_cons (h : isGap c = false) (t : Text) : skipGap (c :: t) = c :: t :=
  List.dropWhile_cons_of_neg (by simp [h])

/-- A number starts with its sign or a digit. -/
theorem exists_writeNumeral_eq_cons {n : Numeral} (h : n.IsProper) :
    ∃ c t, writeNumeral n = c :: t ∧ (c = '-' ∨ c.isDigit = true) := by
  rw [writeNumeral_eq]
  cases n.negative with
  | true => exact ⟨'-', _, rfl, .inl rfl⟩
  | false =>
    obtain ⟨d, ds, hds⟩ := List.exists_cons_of_ne_nil h.whole.1
    refine ⟨d, _, by rw [hds]; rfl, .inr (h.whole.2 d ?_)⟩
    rw [hds]
    exact List.mem_cons_self

/-- What a number starts with is none of the other tokens' first characters, and no gap. -/
theorem ne_of_sign_or_digit (hc : c = '-' ∨ c.isDigit = true) :
    c ≠ '"' ∧ c ≠ '[' ∧ c ≠ ']' ∧ c ≠ '\x7b' ∧ c ≠ 'n' ∧ c ≠ 't' ∧ c ≠ 'f' ∧ isGap c = false := by
  rcases hc with rfl | hc
  · decide
  · have hne : ∀ d : Char, d.isDigit = false → c ≠ d := by
      rintro d hd rfl
      rw [hd] at hc
      cases hc
    refine ⟨hne _ rfl, hne _ rfl, hne _ rfl, hne _ rfl, hne _ rfl, hne _ rfl, hne _ rfl, ?_⟩
    simp only [isGap, Bool.or_eq_false_iff, decide_eq_false_iff_not]
    exact ⟨⟨⟨hne _ rfl, hne _ rfl⟩, hne _ rfl⟩, hne _ rfl⟩

/-- A value starts with no gap and no closing bracket. -/
theorem exists_write_eq_cons (h : j.IsProper) :
    ∃ c t, write j = c :: t ∧ isGap c = false ∧ c ≠ ']' := by
  cases j with
  | null => exact ⟨'n', _, rfl, by decide⟩
  | bool b => cases b with
    | true => exact ⟨'t', _, rfl, by decide⟩
    | false => exact ⟨'f', _, rfl, by decide⟩
  | number n =>
    obtain ⟨c, t, hw, hc⟩ := exists_writeNumeral_eq_cons h
    obtain ⟨-, -, hclose, -, -, -, -, hgap⟩ := ne_of_sign_or_digit hc
    exact ⟨c, t, hw, hgap, hclose⟩
  | string s =>
    obtain ⟨w, hw, -⟩ := exists_writeString_eq_cons s
    exact ⟨'"', w, hw, by decide⟩
  | array items => cases items with
    | nil => exact ⟨'[', _, rfl, by decide⟩
    | cons j js => exact ⟨'[', _, rfl, by decide⟩
  | object members => cases members with
    | nil => exact ⟨'\x7b', _, rfl, by decide⟩
    | cons m ms => exact ⟨'\x7b', _, rfl, by decide⟩

/-- Behind an item stands a comma or the closing bracket. -/
theorem numberEnds_writeItems (js : List Json) (rest : Text) :
    NumberEnds (writeItems js ++ rest) := by
  cases js with
  | nil => exact numberEnds_cons (by decide) _
  | cons j js => exact numberEnds_cons (by decide) _

/-- Behind a member stands a comma or the closing brace. -/
theorem numberEnds_writeMembers (ms : List (Option Text × Json)) (rest : Text) :
    NumberEnds (writeMembers ms ++ rest) := by
  cases ms with
  | nil => exact numberEnds_cons (by decide) _
  | cons m ms => exact numberEnds_cons (by decide) _

/-! ## One step of the reader -/

/-- A word is read back, and reading goes on behind it. -/
theorem dropWord?_append (w t : Text) : dropWord? w (w ++ t) = some t := by
  induction w with
  | nil => rfl
  | cons c w ih => rw [List.cons_append, dropWord?, if_pos rfl, ih]

theorem readWord_append (word : String) (j : Json) (t : Text) :
    readWord word j (word.toList ++ t) = some (j, t) := by
  rw [readWord, dropWord?_append]
  rfl

/-- With so many steps, whatever fits is read back, and reading goes on behind it: a value, the
items of an array after its opening bracket, and the members of an object after its opening
brace. -/
structure ReadsBack (steps : Nat) : Prop where
  value : ∀ {j rest}, IsProper j → NumberEnds rest → 2 * (write j).length ≤ steps + 1 →
    readValue steps (write j ++ rest) = some (j, rest)
  items : ∀ {j js}, IsProper j → AreProper js → ∀ rest,
    2 * (write j ++ writeItems js).length ≤ steps →
      readItems steps (write j ++ (writeItems js ++ rest)) = some (j :: js, rest)
  members : ∀ {j ms} name, IsProper j → HaveProper ms → ∀ rest,
    2 * (writeString name ++ ':' :: (write j ++ writeMembers ms)).length ≤ steps →
      readMembers steps (writeString name ++ ':' :: (write j ++ (writeMembers ms ++ rest))) =
        some ((name, j) :: ms, rest)

/-! ## Values by their first character -/

theorem readValue_quote (steps : Nat) (r : Text) :
    readValue (steps + 1) ('"' :: r) = (readString r).map fun (s, r) => (.string s, r) := rfl

/-- What stands in brackets and starts with no gap is read as items. -/
theorem readValue_bracket (hgap : isGap c = false) (hc : c ≠ ']') (steps : Nat) (r : Text) :
    readValue (steps + 1) ('[' :: c :: r) =
      (readItems steps (c :: r)).map fun (js, r) => (.array js, r) := by
  have hopen : skipGap ('[' :: c :: r) = '[' :: c :: r := skipGap_cons rfl _
  rw [readValue, hopen]
  simp only [Char.reduceEq, if_false, if_true, skipGap_cons hgap]
  split
  · next heq => exact absurd (List.cons.inj heq).1 hc
  · rfl

/-- What stands in braces and starts with a quote is read as members. -/
theorem readValue_brace (steps : Nat) (r : Text) :
    readValue (steps + 1) ('\x7b' :: '"' :: r) =
      (readMembers steps ('"' :: r)).map fun (ms, r) => (.object ms, r) := rfl

/-- What starts with a sign or a digit is read as a number. -/
theorem readValue_number (hc : c = '-' ∨ c.isDigit = true) (steps : Nat) (r : Text) :
    readValue (steps + 1) (c :: r) =
      (readNumber (c :: r)).map fun (n, r) => (.number n, r) := by
  obtain ⟨hquote, hbracket, -, hbrace, hn, ht, hf, hgap⟩ := ne_of_sign_or_digit hc
  rw [readValue, skipGap_cons hgap]
  simp only [if_neg hquote, if_neg hbracket, if_neg hbrace, if_neg hn, if_neg ht, if_neg hf]

/-- A value is read back with one step more than its items or members. -/
theorem ReadsBack.value_succ (h : ReadsBack steps) (hj : IsProper j) (hrest : NumberEnds rest)
    (hsteps : 2 * (write j).length ≤ steps + 1 + 1) :
    readValue (steps + 1) (write j ++ rest) = some (j, rest) := by
  cases j with
  | null => exact readWord_append "ull" .null rest
  | bool b => cases b with
    | true => exact readWord_append "rue" (.bool true) rest
    | false => exact readWord_append "alse" (.bool false) rest
  | number n =>
    have hread := readNumber_writeNumeral hj hrest
    obtain ⟨c, t, hw, hc⟩ := exists_writeNumeral_eq_cons hj
    rw [hw, List.cons_append] at hread
    rw [write, hw, List.cons_append, readValue_number hc, hread]
    rfl
  | string s =>
    obtain ⟨w, hw, hread⟩ := exists_writeString_eq_cons s
    rw [write, hw, List.cons_append, readValue_quote, hread]
    rfl
  | array items => cases items with
    | nil => rfl
    | cons j js =>
      obtain ⟨hj, hjs⟩ := hj
      simp only [write, List.cons_append, List.length_cons] at hsteps
      have hread := h.items hj hjs rest (by omega)
      obtain ⟨c, t, hw, hgap, hc⟩ := exists_write_eq_cons hj
      rw [hw, List.cons_append] at hread
      simp only [write, List.cons_append, List.append_assoc]
      rw [hw, List.cons_append, readValue_bracket hgap hc, hread]
      rfl
  | object members => cases members with
    | nil => rfl
    | cons m ms =>
      obtain ⟨name, j⟩ := m
      obtain ⟨hj, hms⟩ := hj
      simp only [write, List.cons_append, List.append_assoc, List.length_cons] at hsteps
      have hread := h.members name hj hms rest (by omega)
      obtain ⟨w, hw, -⟩ := exists_writeString_eq_cons name
      rw [hw, List.cons_append] at hread
      simp only [write, List.cons_append, List.append_assoc]
      rw [hw, List.cons_append, readValue_brace, hread]
      rfl

/-! ## Items and members -/

/-- Items are read back with one step more than the first of them and than those behind it. -/
theorem ReadsBack.items_succ (h : ReadsBack steps) (hj : IsProper j) (hjs : AreProper js)
    (rest : Text) (hsteps : 2 * (write j ++ writeItems js).length ≤ steps + 1) :
    readItems (steps + 1) (write j ++ (writeItems js ++ rest)) = some (j :: js, rest) := by
  rw [List.length_append] at hsteps
  have hvalue := h.value hj (numberEnds_writeItems js rest) (by omega)
  rw [readItems, hvalue]
  cases js with
  | nil => rfl
  | cons i js =>
    obtain ⟨hi, hjs⟩ := hjs
    simp only [writeItems, List.cons_append, List.length_cons] at hsteps
    have hread := h.items hi hjs rest (by omega)
    simp only [writeItems, List.cons_append, List.append_assoc, Option.bind_eq_bind,
      Option.bind_some, skipGap_cons (show isGap ',' = false from rfl)]
    rw [hread]
    rfl

/-- Members are read back with one step more than the first value and than those behind it. -/
theorem ReadsBack.members_succ (h : ReadsBack steps) (name : Option Text) (hj : IsProper j)
    (hms : HaveProper ms) (rest : Text)
    (hsteps : 2 * (writeString name ++ ':' :: (write j ++ writeMembers ms)).length ≤ steps + 1) :
    readMembers (steps + 1) (writeString name ++ ':' :: (write j ++ (writeMembers ms ++ rest))) =
      some ((name, j) :: ms, rest) := by
  simp only [List.length_append, List.length_cons] at hsteps
  have hvalue := h.value hj (numberEnds_writeMembers ms rest) (by omega)
  obtain ⟨w, hw, hname⟩ := exists_writeString_eq_cons name
  rw [hw, List.cons_append, readMembers, skipGap_cons rfl]
  simp only [hname, Option.bind_eq_bind, Option.bind_some,
    skipGap_cons (show isGap ':' = false from rfl), hvalue]
  cases ms with
  | nil => rfl
  | cons m ms =>
    obtain ⟨next, i⟩ := m
    obtain ⟨hi, hms⟩ := hms
    simp only [writeMembers, List.cons_append, List.append_assoc, List.length_cons] at hsteps
    have hread := h.members next hi hms rest (by omega)
    simp only [writeMembers, List.cons_append, List.append_assoc,
      skipGap_cons (show isGap ',' = false from rfl)]
    rw [hread]
    rfl

/-- Whatever fits the number of steps is read back. -/
theorem readsBack (steps : Nat) : ReadsBack steps := by
  induction steps with
  | zero =>
    -- nothing fits, as no value is written without a character
    refine ⟨fun hj _ hsteps => ?_, fun hj _ _ hsteps => ?_, fun _ hj _ _ hsteps => ?_⟩
    all_goals
      obtain ⟨c, t, hw, -⟩ := exists_write_eq_cons hj
      simp only [hw, List.length_append, List.length_cons] at hsteps
      omega
  | succ steps ih =>
    exact ⟨ih.value_succ, ih.items_succ, ih.members_succ⟩

/-- A proper value is read back from its text. -/
theorem read_write (h : j.IsProper) : read (write j) = some j := by
  have hend : NumberEnds [] := nofun
  have hread := (readsBack (2 * (write j).length + 2)).value h hend (by omega)
  rw [List.append_nil] at hread
  rw [read, hread]
  rfl

end Mentions.Json
