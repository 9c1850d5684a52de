/-!
# Sets of characters as sorted ranges

A Unicode property is a set of code points, kept as a list of ranges, both ends included. The ranges
of a `Ranges` are disjoint and in increasing order, which is checked where a table is written down,
so a look-up may stop at the first range that lies above the code point.

Main statement: `Ranges.contains_iff` says that stopping there misses nothing.
-/

namespace Mentions

namespace Ranges

/-- Whether all ranges of a list lie above a bound, are disjoint and in increasing order. -/
def increasing : (bound : Nat) → List (Nat × Nat) → Bool
  | _, [] => true
  | bound, (lo, hi) :: rest => bound ≤ lo && lo ≤ hi && increasing (hi + 1) rest

/-- Looks a code point up in a list of ranges, up to the first one above it. -/
def search : List (Nat × Nat) → Nat → Bool
  | [], _ => false
  | (lo, hi) :: rest, n => lo ≤ n && (n ≤ hi || search rest n)

end Ranges

/-- A set of code points as increasing ranges. -/
structure Ranges where
  list : List (Nat × Nat)
  ordered : Ranges.increasing 0 list = true := by decide +kernel

namespace Ranges

/-- Whether a code point lies in one of the ranges. -/
def contains (r : Ranges) (n : Nat) : Bool := search r.list n

/-- Whatever lies in one of a list of ranges that are above a bound is not below it. -/
theorem le_of_mem_of_increasing {bound : Nat} {l : List (Nat × Nat)} {p : Nat × Nat} {n : Nat}
    (h : increasing bound l = true) (hp : p ∈ l) (hn : p.1 ≤ n) : bound ≤ n := by
  induction l generalizing bound with
  | nil => simp at hp
  | cons q l ih =>
    simp only [increasing, Bool.and_eq_true, decide_eq_true_eq] at h
    rcases List.mem_cons.1 hp with rfl | hp
    · omega
    · have := ih h.2 hp
      omega

/-- The search finds a code point exactly if it is in one of the ranges. -/
theorem search_iff {bound : Nat} {l : List (Nat × Nat)} {n : Nat}
    (h : increasing bound l = true) :
    search l n = true ↔ ∃ p ∈ l, p.1 ≤ n ∧ n ≤ p.2 := by
  induction l generalizing bound with
  | nil => simp [search]
  | cons q l ih =>
    simp only [increasing, Bool.and_eq_true, decide_eq_true_eq] at h
    simp only [search, Bool.and_eq_true, Bool.or_eq_true, decide_eq_true_eq, ih h.2]
    constructor
    · rintro ⟨hlo, hhi | ⟨p, hp, hn⟩⟩
      · exact ⟨q, List.mem_cons_self, hlo, hhi⟩
      · exact ⟨p, List.mem_cons_of_mem q hp, hn⟩
    · rintro ⟨p, hp, hn⟩
      rcases List.mem_cons.1 hp with rfl | hp
      · exact ⟨hn.1, .inl hn.2⟩
      · have := le_of_mem_of_increasing h.2 hp hn.1
        exact ⟨by omega, .inr ⟨p, hp, hn⟩⟩

/-- A set of ranges contains a code point exactly if it is in one of them. -/
theorem contains_iff {r : Ranges} {n : Nat} :
    r.contains n = true ↔ ∃ p ∈ r.list, p.1 ≤ n ∧ n ≤ p.2 :=
  search_iff r.ordered

end Ranges

end Mentions
