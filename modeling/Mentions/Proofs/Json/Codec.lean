import Mentions.Json.Codec
import Mentions.Json.Decode
import Mentions.Proofs.Json.Reading

/-!
# Codecs that read back what they write

All that is asked of a codec is that it reads the text that it writes as the value that was written,
and this only for values that JSON readers take alike (`Codec.ReadsBack`). In such a plain value
(`IsPlain`) each string has a text, each number is a natural number in the range of offsets, and
each object has distinct names. It is not nested deeper than readers go.

The numbers of a plain value are spelled as they should be, so the library's own reader gives back
what its writer has written: `Codec.standard_readsBack`.
-/

namespace Mentions.Json

variable {d : Nat} {j : Json} {js : List Json} {ms : List (String × Json)}

/-- The values that every reader takes alike, with at most so many arrays and objects open at
once. -/
inductive IsPlain : Nat → Json → Prop
  | null {d : Nat} : IsPlain d .null
  | bool {d : Nat} (b : Bool) : IsPlain d (.bool b)
  | ofNat {d n : Nat} (h : n ≤ maxOffset) : IsPlain d (.ofNat n)
  | ofText {d : Nat} (t : Text) : IsPlain d (.ofText t)
  | array {d : Nat} {items : List Json} (h : ∀ j ∈ items, IsPlain d j) :
    IsPlain (d + 1) (.array items)
  | ofMembers {d : Nat} {ms : List (String × Json)} (hnames : (ms.map Prod.fst).Nodup)
      (h : ∀ m ∈ ms, IsPlain d m.2) :
    IsPlain (d + 1) (.ofMembers ms)

attribute [simp] IsPlain.null IsPlain.bool IsPlain.ofNat IsPlain.ofText

/-- A codec that reads every plain value back from the text that it writes. -/
def Codec.ReadsBack (codec : Codec) : Prop :=
  ∀ j, IsPlain maxDepth j → codec.read (codec.write j) = some j

/-! ## The library's own codec -/

theorem areProper_of_forall (h : ∀ j ∈ js, j.IsProper) : AreProper js := by
  induction js with
  | nil => trivial
  | cons j js ih =>
    obtain ⟨hj, hjs⟩ := List.forall_mem_cons.1 h
    exact ⟨hj, ih hjs⟩

theorem isProper_ofMembers (h : ∀ m ∈ ms, m.2.IsProper) : (ofMembers ms).IsProper := by
  induction ms with
  | nil => trivial
  | cons m ms ih =>
    obtain ⟨hm, hms⟩ := List.forall_mem_cons.1 h
    exact ⟨hm, ih hms⟩

/-- The numbers of a plain value are spelled as they should be. -/
theorem IsPlain.isProper (h : IsPlain d j) : j.IsProper := by
  induction h with
  | null | bool | ofText => trivial
  | ofNat _ => exact Numeral.isProper_ofNat _
  | array _ ih => exact areProper_of_forall ih
  | ofMembers _ _ ih => exact isProper_ofMembers ih

/-- The library reads back what it has written. -/
theorem Codec.standard_readsBack : Codec.standard.ReadsBack := fun _ h => read_write h.isProper

end Mentions.Json
