import OneTwo.Machine.Run
import OneTwo.Proofs.Machine.Compiled

/-!
Rebuilding undoes compiling. Folded with the operations that build expressions, an expression gives
itself: the operands of a division are exchanged once when its code is written and once more when
its node is built.
-/

namespace OneTwo

theorem Operations.expressions_inOrder (op : Operator) (left right : Expr) (s : Unit) :
    expressions.apply op (op.inOrder left right).1 (op.inOrder left right).2 s =
      (.apply op left right, s) := by
  simp only [expressions, Operator.inOrder_inOrder]

theorem Expr.fold_expressions (e : Expr) : e.fold .expressions () = (e, ()) := by
  induction e with
  | literal l => rfl
  | apply op left right ihl ihr =>
    have built := Operations.expressions_inOrder op left right ()
    rw [fold_apply]
    obtain order | order := op.inOrder_cases left right <;> rw [order] at built ⊢ <;>
      simp only [ihl, ihr, built]

/-- The dividend is written first, and the divisor comes back as the left operand. -/
theorem Program.rebuild_compile :
    (∀ e : Expr, e.compile.rebuild.value = .ok e) ∧
      ∀ divisor dividend : Expr, (Expr.apply .div divisor dividend).compile.tokens =
        dividend.compile.tokens ++ (divisor.compile.tokens ++ [.operator .div]) := by
  refine ⟨fun e => ?_, fun divisor dividend => Expr.postorder_apply .div divisor dividend⟩
  rw [rebuild, execute_compile, Expr.fold_expressions]

end OneTwo
