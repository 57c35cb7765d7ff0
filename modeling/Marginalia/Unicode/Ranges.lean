/-!
# Sorted ranges of code points

A property of code points is written down as the list of its maximal ranges, in ascending
order.  `inRanges` walks such a list and stops at the first range that begins after the
code point asked for, so the frequent code points at the front of the tables are cheap.
`inRanges_cons_of_lt`, `inRanges_cons_of_le` and `inRanges_cons_of_gt` are its three cases.
-/

namespace Marginalia.Unicode

/-- Whether a code point lies in one of the ranges of an ascending list. -/
def inRanges : List (Nat × Nat) → Nat → Bool
  | [], _ => false
  | (first, last) :: rest, code =>
    if code < first then false
    else if code ≤ last then true
    else inRanges rest code

/-- Before the first range there is nothing. -/
theorem inRanges_cons_of_lt {first last code : Nat} (rest : List (Nat × Nat))
    (h : code < first) : inRanges ((first, last) :: rest) code = false := by
  simp [inRanges, h]

/-- A code point within the first range is in. -/
theorem inRanges_cons_of_le {first last code : Nat} (rest : List (Nat × Nat))
    (h₁ : first ≤ code) (h₂ : code ≤ last) :
    inRanges ((first, last) :: rest) code = true := by
  simp [inRanges, Nat.not_lt.2 h₁, h₂]

/-- Past the first range the others decide. -/
theorem inRanges_cons_of_gt {first last code : Nat} (rest : List (Nat × Nat))
    (h₁ : first ≤ code) (h₂ : last < code) :
    inRanges ((first, last) :: rest) code = inRanges rest code := by
  simp [inRanges, Nat.not_lt.2 h₁, Nat.not_le.2 h₂]

end Marginalia.Unicode
