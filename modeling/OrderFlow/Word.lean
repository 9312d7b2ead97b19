import OrderFlow.Power

/-! Words of 64 bits. Counts are words without a sign, times are words with one. -/
namespace OrderFlow

/-- Counts are below this. -/
def wordSize : Nat := 2 ^ 64

/-- Is a number a word with a sign? -/
def isSigned (i : Int) : Bool := -2 ^ 63 ≤ i && i < 2 ^ 63

/-- A number that has to be a word with a sign. -/
def signed? (i : Int) : Option Int := if isSigned i then some i else none

theorem isSigned_iff {i : Int} : isSigned i = true ↔ -2 ^ 63 ≤ i ∧ i < 2 ^ 63 := by
  simp [isSigned]

theorem signed?_eq_some {i j : Int} : signed? i = some j ↔ isSigned i = true ∧ i = j := by
  simp [signed?]

end OrderFlow
