/-!
# Ranges of code points

A character property is a list of closed ranges of code points in ascending order. The lists
of this folder are those of Unicode 17.0.
-/

namespace HamlTemplate.Unicode

/-- Closed ranges of code points, in ascending order and without overlap. -/
abbrev Ranges := List (Nat × Nat)

namespace Ranges

/-- A code point is covered when it lies in one of the ranges. The search ends at the first
range that begins above the code point. -/
def covers : Ranges → Nat → Bool
  | [], _ => false
  | (low, high) :: above, n => if n < low then false else n ≤ high || covers above n

@[simp] theorem covers_nil (n : Nat) : covers [] n = false := rfl

private theorem covers_cons_of_lt {n low high : Nat} (h : n < low) (above : Ranges) :
    covers ((low, high) :: above) n = false := by
  simp [covers, h]

private theorem covers_cons_of_gt {n low high : Nat} (hl : low ≤ n) (hh : high < n)
    (above : Ranges) :
    covers ((low, high) :: above) n = covers above n := by
  simp [covers, Nat.not_lt.mpr hl, Nat.not_le.mpr hh]

def points (ranges : Ranges) : List Nat :=
  ranges.flatMap fun range => List.range' range.1 (range.2 + 1 - range.1)

theorem mem_points_of_covers {ranges : Ranges} {n : Nat} (h : ranges.covers n = true) :
    n ∈ ranges.points := by
  induction ranges with
  | nil => cases h
  | cons range above ih =>
    obtain ⟨low, high⟩ := range
    rw [points, List.flatMap_cons, List.mem_append, List.mem_range'_1]
    by_cases below : n < low
    · rw [covers_cons_of_lt below] at h
      cases h
    · by_cases within : n ≤ high
      · left
        show low ≤ n ∧ n < low + (high + 1 - low)
        omega
      · rw [covers_cons_of_gt (by omega) (by omega)] at h
        exact .inr (ih h)

end Ranges

end HamlTemplate.Unicode
