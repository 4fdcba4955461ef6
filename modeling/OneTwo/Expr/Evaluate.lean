import OneTwo.Arithmetic
import OneTwo.Logged

/-!
Direct evaluation. A division whose divisor is an operator node counts as 0: neither of its operands
is evaluated, and one remark names the whole division. The machine computes such a division as it
stands, so that the two may differ there and nowhere else.
-/

namespace OneTwo.Expr

variable {α : Type}

/-- A division whose divisor is not a literal. -/
def isShortCircuit : Expr → Bool
  | apply .div divisor _ => !divisor.isLiteral
  | _ => false

def evaluate [Arithmetic α] (e : Expr) : Logged α :=
  match e with
  | literal l => pure (Arithmetic.literal l)
  | apply op left right =>
    if e.isShortCircuit then do
      Logged.log (.compoundDivisor e)
      return Arithmetic.zero
    else do
      let (first, second) := op.inOrder left.evaluate right.evaluate
      return Arithmetic.apply op (← first) (← second)

end OneTwo.Expr
