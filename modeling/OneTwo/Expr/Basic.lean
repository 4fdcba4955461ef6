import OneTwo.Literal
import OneTwo.Operator

/-!
Expressions over the two literals. An operator node keeps its operands in stored order, so the left
operand of a division is its divisor.
-/

namespace OneTwo

inductive Expr where
  | literal (value : Literal)
  | apply (op : Operator) (left right : Expr)
  deriving DecidableEq

namespace Expr

def ofInt (value : Int) : Except InvalidLiteral Expr :=
  (Literal.ofInt value).map literal

def isLiteral : Expr → Bool
  | literal _ => true
  | apply .. => false

def operands? : Expr → Option (Expr × Expr)
  | literal _ => none
  | apply _ left right => some (left, right)

/-- The number of operators on the longest path down from the root. -/
def depth : Expr → Nat
  | literal _ => 0
  | apply _ left right => max left.depth right.depth + 1

theorem depth_apply_le_succ_iff {op : Operator} {left right : Expr} {levels : Nat} :
    (apply op left right).depth ≤ levels + 1 ↔ left.depth ≤ levels ∧ right.depth ≤ levels := by
  rw [depth, Nat.add_le_add_iff_right, Nat.max_le]

theorem not_depth_apply_le_zero {op : Operator} {left right : Expr} :
    ¬(apply op left right).depth ≤ 0 := by
  simp [depth]

def size : Expr → Nat
  | literal _ => 1
  | apply _ left right => left.size + right.size + 1

end Expr

end OneTwo
