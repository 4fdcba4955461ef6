import OneTwo.Expr.Basic
import OneTwo.Program

/-!
The program of an expression: its nodes operands first, each operator after its two operands in
written order. The divisor of a division is thus the last value computed before its operator.
-/

namespace OneTwo.Expr

def postorder : Expr → List Token
  | literal l => [.literal l]
  | apply op left right =>
    let (first, second) := op.inOrder left.postorder right.postorder
    first ++ second ++ [.operator op]

theorem length_postorder (e : Expr) : e.postorder.length = e.size := by
  induction e with
  | literal => rfl
  | apply op left right ihl ihr =>
    have operands : (op.inOrder left.postorder right.postorder).1.length +
        (op.inOrder left.postorder right.postorder).2.length = left.size + right.size := by
      cases op with
      | add | mul => simp only [Operator.inOrder, ihl, ihr]
      | div => simp only [Operator.inOrder, ihl, ihr, Nat.add_comm]
    simp only [postorder, size, List.length_append, operands, List.length_singleton]

def compile (e : Expr) : Program :=
  ⟨e.postorder⟩

end OneTwo.Expr
