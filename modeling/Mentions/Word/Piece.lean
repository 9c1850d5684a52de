import Mentions.Word.Backward
import Mentions.Word.Forward
import Mentions.Word.Segmentation

/-!
# Pieces by the default word boundaries

`Word.pieces` cuts a text into consecutive pieces by the default word boundaries, and
`Word.piecesBackward` does so from the end of a text. Both are segmentations, whatever the rules
that cut the pieces, since the pieces make up the text (`flatten_cutPieces`) and none is empty
(`ne_nil_of_mem_cutPieces`). A program that brings no segmenter of its own works with these two:
`Segmenter.standard`.
-/

namespace Mentions.Word

/-! ## Cutting a text into pieces -/

/-- Cuts a text by a rule that says how many characters follow the first one of a piece. The first
`n` characters still belong to a piece that is open, and are given apart. -/
def cutPieces (extent : Char → Text → Nat) : Nat → Text → Text × List Text
  | _, [] => ([], [])
  | n + 1, c :: t =>
    let (p, ps) := cutPieces extent n t
    (c :: p, ps)
  | 0, c :: t =>
    let (p, ps) := cutPieces extent (extent c t) t
    ([], (c :: p) :: ps)

/-- No characters are left to an open piece where none is open. -/
theorem cutPieces_zero_fst (extent : Char → Text → Nat) (t : Text) :
    (cutPieces extent 0 t).1 = [] := by
  cases t <;> rfl

/-- The pieces concatenate to the text. -/
theorem flatten_cutPieces (extent : Char → Text → Nat) (n : Nat) (t : Text) :
    (cutPieces extent n t).1 ++ (cutPieces extent n t).2.flatten = t := by
  fun_induction cutPieces extent n t with
  | case1 => rfl
  | case2 n c t p ps h ih => simpa [h] using ih
  | case3 c t p ps h ih => simpa [h] using ih

/-- No piece is empty. -/
theorem ne_nil_of_mem_cutPieces (extent : Char → Text → Nat) (n : Nat) (t : Text) :
    ∀ p ∈ (cutPieces extent n t).2, p ≠ [] := by
  fun_induction cutPieces extent n t with
  | case1 => simp
  | case2 n c t p ps h ih => simpa [h] using ih
  | case3 c t p ps h ih =>
    rw [h] at ih
    intro q hq
    rcases List.mem_cons.1 hq with rfl | hq
    · simp
    · exact ih q hq

/-- The word pieces of a text, in order. -/
def pieces (t : Text) : List Text := (cutPieces Forward.extent 0 t).2

/-- The word pieces of a reversed text, the last piece first and each of them reversed. -/
def piecesBackward (t : Text) : List Text := (cutPieces Backward.extent 0 t).2

theorem flatten_pieces (t : Text) : (pieces t).flatten = t := by
  have h := flatten_cutPieces Forward.extent 0 t
  rwa [cutPieces_zero_fst, List.nil_append] at h

theorem flatten_piecesBackward (t : Text) : (piecesBackward t).flatten = t := by
  have h := flatten_cutPieces Backward.extent 0 t
  rwa [cutPieces_zero_fst, List.nil_append] at h

/-! ## The standard segmenter -/

namespace Segmentation

/-- The default word boundaries, found from the left. -/
def forward : Segmentation where
  pieces := Word.pieces
  flatten_pieces := Word.flatten_pieces
  ne_nil_of_mem := ne_nil_of_mem_cutPieces Forward.extent 0

/-- The default word boundaries, found from the right. -/
def backward : Segmentation where
  pieces t := ((piecesBackward t.reverse).map List.reverse).reverse
  flatten_pieces t := by
    rw [← List.reverse_flatten, flatten_piecesBackward, List.reverse_reverse]
  ne_nil_of_mem t p hp := by
    obtain ⟨q, hq, rfl⟩ := List.mem_map.1 (List.mem_reverse.1 hp)
    rw [Ne, List.reverse_eq_nil_iff]
    exact ne_nil_of_mem_cutPieces Backward.extent 0 _ q hq

end Segmentation

/-- The default word boundaries in both directions. -/
def Segmenter.standard : Segmenter := ⟨.backward, .forward⟩

end Mentions.Word
