import Mathlib.Data.List.Basic
import Mentions.Proofs.Growth.Rescan
import Mentions.Proofs.Scan.Position

/-!
# Repairing by the length limit

Without the buffer before an edit, a repair goes by the length of a mention alone. A mention has
*room* for as many body characters as the limit leaves beside the marker (`Config.room`), and it is
cut if it is longer than the limit and one of those characters is a word character
(`Span.Cuttable`). Then the longest part of its body that has room and ends in a word character is
kept (`LongestWithin`), which is a mention at the head of the old one. So the general result about
separated texts says what becomes of the mentions (`repaired_repair_none`).

What is kept is within the limit, and what is not cut is as it was, so a second repair finds nothing
to cut (`not_cuttable_of_mem_scan_repair`). Main statement: `overlong_mentions_are_cut`.
-/

namespace Mentions

open Text

variable {m c : Char} {t b l r : Text} {s s' : Span} {n : Nat} {config : Config}

/-! ## The longest part within a limit -/

/-- The longest of the left parts of a text that have at most `n` characters and end in a word
character. -/
structure LongestWithin (n : Nat) (t b : Text) : Prop where
  isPrefix : b <+: t
  length_le : b.length ≤ n
  last : ∃ l c, b = l ++ [c] ∧ isWordChar c = true
  longest : ∀ l c, l ++ [c] <+: t → (l ++ [c]).length ≤ n → isWordChar c = true →
    (l ++ [c]).length ≤ b.length

/-- What is taken of a text is a left part of it. -/
theorem takeThrough_isPrefix (p : Char → Bool) (t : Text) : takeThrough p t <+: t := by
  obtain ⟨r, ht, -⟩ := exists_takeThrough_append p t
  exact ⟨r, ht.symm⟩

theorem takeThrough_ne_nil_iff {p : Char → Bool} :
    takeThrough p t ≠ [] ↔ ∃ c ∈ t, p c = true := by
  rw [Ne, takeThrough_eq_nil_iff]
  simp

/-- What is taken of the first `n` characters of a text is the longest such part. -/
theorem longestWithin_takeThrough (h : takeThrough isWordChar (t.take n) ≠ []) :
    LongestWithin n t (takeThrough isWordChar (t.take n)) where
  isPrefix := (takeThrough_isPrefix _ _).trans (List.take_prefix _ _)
  length_le := (takeThrough_isPrefix _ _).length_le.trans (List.length_take_le _ _)
  last := exists_takeThrough_eq_concat h
  longest := by
    intro l c hl hlen hc
    obtain ⟨r, hr⟩ := List.prefix_take_iff.2 ⟨hl, hlen⟩
    rw [List.append_assoc, List.singleton_append] at hr
    rw [← hr, takeThrough_append_cons hc]
    simp

/-! ## Mentions that are cut -/

/-- The number of body characters that the length limit leaves room for. -/
def Config.room (config : Config) : Nat := config.maxLength - unitsOf config.marker

/-- The part of the body that has room, up to its last word character. -/
def Span.keptBody (config : Config) (s : Span) : Text :=
  takeThrough isWordChar (s.username.take config.room)

/-- The mention is longer than the limit, and a word character of its body has room. -/
def Span.Cuttable (config : Config) (s : Span) : Prop :=
  config.maxLength < s.length ∧ ∃ c ∈ s.username.take config.room, isWordChar c = true

instance (config : Config) (s : Span) : Decidable (s.Cuttable config) :=
  inferInstanceAs (Decidable (_ ∧ _))

theorem Span.keptBody_ne_nil_iff :
    s.keptBody config ≠ [] ↔ ∃ c ∈ s.username.take config.room, isWordChar c = true :=
  takeThrough_ne_nil_iff

/-- The length of a mention is that of its marker and its body. -/
theorem Span.exists_username (hs : s ∈ scan m t) :
    s.text = m :: s.username ∧ IsBody s.username ∧
      s.length = unitsOf m + s.username.length ∧ s.stop = s.start + s.length := by
  obtain ⟨l, b, r, -, hb, -, rfl⟩ := exists_of_mem_scan hs
  have hlen := units_eq_length hb.chars
  refine ⟨rfl, hb, ?_, ?_⟩
  · show units l + unitsOf m + units b - units l = unitsOf m + b.length
    omega
  · show units l + unitsOf m + units b = units l + (units l + unitsOf m + units b - units l)
    omega

/-- What is kept of a body is a body, and is found at its head. -/
theorem Span.exists_keptBody (hb : IsBody s.username) (h : s.keptBody config ≠ []) :
    IsBody (s.keptBody config) ∧ ∃ r, s.username = s.keptBody config ++ r := by
  have hlong : LongestWithin config.room s.username (s.keptBody config) :=
    longestWithin_takeThrough h
  obtain ⟨r, hr⟩ := hlong.isPrefix
  obtain ⟨l, c, hl, hc⟩ := hlong.last
  refine ⟨?_, r, hr.symm⟩
  rw [hl] at hr ⊢
  refine isBody_concat_iff.2 ⟨fun d hd => ?_, hc⟩
  refine hb.chars d ?_
  rw [← hr]
  simp [hd]

namespace Growth

/-- What a repair keeps of a mention that it cuts. -/
def keptWithin? (config : Config) (s : Span) : Option Text :=
  if s.Cuttable config then some (config.marker :: s.keptBody config) else none

theorem isSome_keptWithin? (config : Config) (s : Span) :
    (keptWithin? config s).isSome = decide (s.Cuttable config) := by
  rw [keptWithin?]
  split
  · next h => exact (decide_eq_true h).symm
  · next h => exact (decide_eq_false h).symm

/-- The length of the longest body within the room is that of what is kept. -/
theorem bodyLength_room (hb : IsBody s.username) :
    bodyLength s.username (config.maxLength - unitsOf config.marker) =
      (s.keptBody config).length := by
  have hall : ∀ c ∈ s.username.take config.room, isBodyChar c = true := by
    intro c hc
    exact hb.chars c ((List.take_prefix _ _).subset hc)
  rw [bodyLength, body, ← Config.room, List.takeWhile_eq_self_iff.2 hall]
  rfl

/-- A mention within the limit is not cut: all of its body has room. -/
theorem shapeCut?_of_le (hs : s ∈ scan config.marker t) (hle : s.length ≤ config.maxLength) :
    shapeCut? config s = none := by
  obtain ⟨-, hb, hlength, hstop⟩ := s.exists_username hs
  have hroom : s.username.length ≤ config.room := by
    rw [Config.room]
    omega
  have hall : s.keptBody config = s.username := by
    obtain ⟨l, c, hl, hc⟩ := hb.exists_concat
    rw [Span.keptBody, List.take_of_length_le hroom, hl, takeThrough_concat hc]
  rw [shapeCut?]
  split
  · simp only [bodyLength_room hb, hall]
    refine if_neg ?_
    rw [Bool.and_eq_true, decide_eq_true_eq, decide_eq_true_eq]
    omega
  · rfl

/-- A mention beyond the limit is cut behind what is kept of it, if anything is. -/
theorem shapeCut?_of_lt (hs : s ∈ scan config.marker t) (hlt : config.maxLength < s.length) :
    shapeCut? config s =
      if s.keptBody config = [] then none
      else some (s.start + units (config.marker :: s.keptBody config)) := by
  obtain ⟨-, hb, hlength, hstop⟩ := s.exists_username hs
  have hsuspicious : isSuspicious config s = true := by
    rw [isSuspicious, decide_eq_true hlt, Bool.or_true]
  rw [shapeCut?, if_pos hsuspicious]
  simp only [bodyLength_room hb]
  by_cases hne : s.keptBody config = []
  · rw [if_pos hne, hne]
    rfl
  · -- what is kept has room, and all of the body has not
    obtain ⟨hbody, -⟩ := s.exists_keptBody hb hne
    have hpos := List.length_pos_iff.2 hne
    have hle : (s.keptBody config).length ≤ config.maxLength - unitsOf config.marker :=
      (longestWithin_takeThrough hne).length_le
    rw [if_neg hne, units_cons, units_eq_length hbody.chars, ← Nat.add_assoc]
    refine if_pos ?_
    rw [Bool.and_eq_true, decide_eq_true_eq, decide_eq_true_eq]
    omega

/-- A repair cuts the cuttable mentions behind what it keeps of them, and no others. -/
theorem shapeCut?_eq (hs : s ∈ scan config.marker t) :
    shapeCut? config s = cutAfter? (keptWithin? config) s := by
  rw [cutAfter?, keptWithin?]
  rcases Nat.lt_or_ge config.maxLength s.length with hlt | hle
  · rw [shapeCut?_of_lt hs hlt]
    by_cases hnil : s.keptBody config = []
    · have hcut : ¬s.Cuttable config := fun h => Span.keptBody_ne_nil_iff.2 h.2 hnil
      rw [if_pos hnil, if_neg hcut]
      rfl
    · have hcut : s.Cuttable config := ⟨hlt, Span.keptBody_ne_nil_iff.1 hnil⟩
      rw [if_neg hnil, if_pos hcut]
      rfl
  · have hcut : ¬s.Cuttable config := fun h => Nat.not_lt.2 hle h.1
    rw [shapeCut?_of_le hs hle, if_neg hcut]
    rfl

/-- What is kept of a mention is a mention at its head. -/
theorem keepsMention_keptWithin? (hs : s ∈ scan config.marker t) :
    KeepsMention config.marker (keptWithin? config) s := by
  intro k hk
  rw [keptWithin?] at hk
  split at hk
  · next hcut =>
    obtain ⟨htext, hb, -⟩ := s.exists_username hs
    obtain ⟨hbody, r, hr⟩ := s.exists_keptBody hb (Span.keptBody_ne_nil_iff.2 hcut.2)
    refine ⟨s.keptBody config, r, (Option.some.inj hk).symm, hbody, ?_⟩
    rw [htext, ← hr]
  · cases hk

/-! ## The repair -/

theorem isSeparator_shapeSeparator : IsSeparator shapeSeparator :=
  ⟨List.cons_ne_nil _ _, List.all_eq_true.1 (by decide)⟩

/-- Without the buffer before the edit, the cuts are where the mentions are shortened. -/
theorem cuts_none (config : Config) (buffer : Text) :
    cuts config buffer none =
      (scan config.marker buffer).filterMap (cutAfter? (keptWithin? config)) := by
  rw [cuts, shapeCuts]
  exact List.filterMap_congr fun s hs => shapeCut?_eq hs

/-- A repair gives the separated buffer with the cuttable mentions shortened. -/
theorem repaired_repair_none (config : Config) (hm : isBodyChar config.marker = false)
    (hz : isZeroWidth config.marker = false) (buffer : Text) :
    Repaired config.marker shapeSeparator (keptWithin? config) 0 buffer
      (scan config.marker buffer) 0 (repair config buffer none) := by
  rw [repair, cuts_none]
  exact repaired_separate hm hz isSeparator_shapeSeparator fun s hs => keepsMention_keptWithin? hs

/-- The mentions after a repair, one for each of those before it. -/
theorem getElem?_scan_repair_none (config : Config) (hm : isBodyChar config.marker = false)
    (hz : isZeroWidth config.marker = false) (buffer : Text) (i : Nat) :
    (scan config.marker (repair config buffer none))[i]? =
      (scan config.marker buffer)[i]?.map fun s =>
        s.keeping (((scan config.marker buffer).take i).countP fun s => s.Cuttable config)
          ((keptWithin? config s).getD s.text) := by
  have hone : units shapeSeparator = 1 := by decide
  rw [(repaired_repair_none config hm hz buffer).scans.scan_eq, getElem?_afterCuts, hone]
  simp only [isSome_keptWithin?, Nat.zero_add, Nat.one_mul]

/-- What is kept of a mention is within the limit. -/
theorem length_keeping_le (hb : IsBody s.username) (hcut : s.Cuttable config) (n : Nat) :
    (s.keeping n (config.marker :: s.keptBody config)).length ≤ config.maxLength := by
  have hne := Span.keptBody_ne_nil_iff.2 hcut.2
  have hle : (s.keptBody config).length ≤ config.maxLength - unitsOf config.marker :=
    (longestWithin_takeThrough hne).length_le
  have hpos := List.length_pos_iff.2 hne
  rw [Span.length_keeping, units_cons, units_eq_length (s.exists_keptBody hb hne).1.chars]
  omega

/-- After a repair no mention can be cut any more. -/
theorem not_cuttable_of_mem_scan_repair (hm : isBodyChar config.marker = false)
    (hz : isZeroWidth config.marker = false) {buffer : Text}
    (hs' : s' ∈ scan config.marker (repair config buffer none)) : ¬s'.Cuttable config := by
  obtain ⟨i, hi⟩ := List.getElem?_of_mem hs'
  rw [getElem?_scan_repair_none config hm hz] at hi
  obtain ⟨s, hs, rfl⟩ := Option.map_eq_some_iff.1 hi
  obtain ⟨htext, hb, hlength, -⟩ := s.exists_username (List.mem_of_getElem? hs)
  rw [keptWithin?]
  split
  · next hcut => exact fun h => Nat.not_lt.2 (length_keeping_le hb hcut _) h.1
  · next hcut =>
    -- it has the text of a mention that could not be cut
    intro h
    refine hcut ⟨?_, h.2⟩
    have hlt := h.1
    rw [Option.getD_none, Span.length_keeping, htext, units_cons, units_eq_length hb.chars,
      ← hlength] at hlt
    exact hlt

/-- **A repair by the length limit cuts the overlong mentions and does nothing else.** The mentions
stay in number and in order, and each moves by one unit for each one before it that is cut. One
within the limit keeps its text, and so does an overlong one that has room for no word character. Of
any other one the longest part of its body that has room and ends in a word character is kept, which
brings it within the limit. The buffer is displayed as before, and a second repair changes
nothing. -/
theorem overlong_mentions_are_cut (config : Config) (buffer : Text)
    (hv : config.validate = .ok ()) :
    let room := config.maxLength - unitsOf config.marker
    let spans := scan config.marker buffer
    let fixed := repair config buffer none
    let spans' := scan config.marker fixed
    spans'.length = spans.length ∧
    (∀ (i : Nat) (s s' : Span), spans[i]? = some s → spans'[i]? = some s' →
      s'.start = s.start + (spans.take i).countP (fun s => s.Cuttable config) ∧
      s'.stop = s'.start + units s'.text ∧
      (s.length ≤ config.maxLength → s'.text = s.text) ∧
      (config.maxLength < s.length → (∃ c ∈ s.username.take room, isWordChar c = true) →
        (∃ b, s'.text = config.marker :: b ∧ LongestWithin room s.username b) ∧
          s'.length ≤ config.maxLength) ∧
      (config.maxLength < s.length → (∀ c ∈ s.username.take room, isWordChar c = false) →
        s'.text = s.text)) ∧
    strip fixed = strip buffer ∧
    repair config fixed none = fixed := by
  intro room spans fixed spans'
  obtain ⟨hm, hz, -⟩ := Config.marker_of_validate hv
  have hrep := repaired_repair_none config hm hz buffer
  refine ⟨?_, ?_, hrep.separated.strip_eq isSeparator_shapeSeparator, ?_⟩
  · rw [← length_afterCuts (keptWithin? config) (units shapeSeparator) 0 spans]
    exact congrArg List.length hrep.scans.scan_eq
  · intro i s s' hs hs'
    have hmem := List.mem_of_getElem? hs
    obtain ⟨-, hb, -⟩ := s.exists_username hmem
    rw [getElem?_scan_repair_none config hm hz, hs, Option.map_some] at hs'
    obtain rfl := Option.some.inj hs'
    have huncut : ¬s.Cuttable config → (keptWithin? config s).getD s.text = s.text := by
      intro hcut
      rw [keptWithin?, if_neg hcut]
      rfl
    refine ⟨rfl, rfl, ?_, ?_, ?_⟩
    · intro hle
      exact huncut fun hcut => Nat.not_lt.2 hle hcut.1
    · intro hlt hword
      have hcut : s.Cuttable config := ⟨hlt, hword⟩
      have hkept : (keptWithin? config s).getD s.text = config.marker :: s.keptBody config := by
        rw [keptWithin?, if_pos hcut]
        rfl
      rw [hkept]
      exact ⟨⟨s.keptBody config, rfl,
        longestWithin_takeThrough (Span.keptBody_ne_nil_iff.2 hword)⟩, length_keeping_le hb hcut _⟩
    · intro _ hnone
      refine huncut fun hcut => ?_
      obtain ⟨c, hc, hword⟩ := hcut.2
      rw [hnone c hc] at hword
      cases hword
  · have hagain := repaired_repair_none config hm hz fixed
    refine (hagain.separated.eq_iff isSeparator_shapeSeparator).2 ?_
    refine List.filterMap_eq_nil_iff.2 ?_
    intro s' hs'
    rw [cutAfter?, keptWithin?, if_neg (not_cuttable_of_mem_scan_repair hm hz hs')]
    rfl

/-- Of three mentions the first is cut before a full stop, the second has room for punctuation only,
and the third is within the limit. -/
theorem overlong_mentions_are_cut_between :
    ({ maxLength := 4 } : Config).validate = .ok () ∧
    scan '@' "@al.ice @...bob @cy".toList =
      [⟨0, 7, "@al.ice".toList⟩, ⟨8, 15, "@...bob".toList⟩, ⟨16, 19, "@cy".toList⟩] ∧
    repair { maxLength := 4 } "@al.ice @...bob @cy".toList none =
      "@al\u200b.ice @...bob @cy".toList ∧
    (⟨0, 3, "@al".toList⟩ : Span).length ≤ 4 ∧
    repair { maxLength := 4 } "@al\u200b.ice @...bob @cy".toList none =
      "@al\u200b.ice @...bob @cy".toList := by
  have hv : ({ maxLength := 4 } : Config).validate = .ok () := by decide
  have hscan : scan '@' "@al.ice @...bob @cy".toList =
      [⟨0, 7, "@al.ice".toList⟩, ⟨8, 15, "@...bob".toList⟩, ⟨16, 19, "@cy".toList⟩] := by decide
  have hfixed : repair { maxLength := 4 } "@al.ice @...bob @cy".toList none =
      "@al\u200b.ice @...bob @cy".toList := by decide +kernel
  have hscan' : scan '@' "@al\u200b.ice @...bob @cy".toList =
      [⟨0, 3, "@al".toList⟩, ⟨9, 16, "@...bob".toList⟩, ⟨17, 20, "@cy".toList⟩] := by decide
  obtain ⟨-, heach, -, hagain⟩ :=
    overlong_mentions_are_cut { maxLength := 4 } "@al.ice @...bob @cy".toList hv
  rw [hfixed] at heach hagain
  obtain ⟨-, -, -, hcut, -⟩ := heach 0 ⟨0, 7, "@al.ice".toList⟩ ⟨0, 3, "@al".toList⟩
    (congrArg (·[0]?) hscan) (congrArg (·[0]?) hscan')
  have hword : ∃ c ∈ (⟨0, 7, "@al.ice".toList⟩ : Span).username.take (4 - unitsOf '@'),
      isWordChar c = true := ⟨'a', List.mem_cons_self, rfl⟩
  exact ⟨hv, hscan, hfixed, (hcut (by decide) hword).2, hagain⟩

end Growth

end Mentions
