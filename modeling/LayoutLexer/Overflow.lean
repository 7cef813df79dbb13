import LayoutLexer.Text

/-! # Checked arithmetic

Widths, offsets and lengths are numbers of sixty-four bits without a sign.  An operation whose
result is no such number has no result; it fails, and the failure says which operation it was.
-/
namespace LayoutLexer

/-- An arithmetic operation whose result does not fit. -/
inductive Overflow where
  | addition
  | multiplication
  | subtraction
  deriving DecidableEq, Repr

namespace Overflow

/-- The message of an overflow. -/
def message : Overflow → Text
  | .addition => "attempt to add with overflow".toList
  | .multiplication => "attempt to multiply with overflow".toList
  | .subtraction => "attempt to subtract with overflow".toList

end Overflow

namespace Checked

/-- One more than the greatest number of sixty-four bits. -/
def limit : Nat := Nat.pow 2 64

/-- The sum, if it fits. -/
def add (m n : Nat) : Except Overflow Nat :=
  if m + n < limit then .ok (m + n) else .error .addition

/-- The product, if it fits. -/
def mul (m n : Nat) : Except Overflow Nat :=
  if m * n < limit then .ok (m * n) else .error .multiplication

theorem add_eq_ok_iff {m n k : Nat} : add m n = .ok k ↔ m + n < limit ∧ k = m + n := by
  unfold add
  split
  · simp_all [eq_comm]
  · simp only [reduceCtorEq, false_iff]
    exact fun h => absurd h.1 ‹_›

theorem mul_eq_ok_iff {m n k : Nat} : mul m n = .ok k ↔ m * n < limit ∧ k = m * n := by
  unfold mul
  split
  · simp_all [eq_comm]
  · simp only [reduceCtorEq, false_iff]
    exact fun h => absurd h.1 ‹_›

end Checked
end LayoutLexer
