import OneTwo.Arithmetic
import OneTwo.Expr.Basic
import OneTwo.Machine.Balance

/-!
Two uses of the machine: over the values of an arithmetic, and over expressions. The second rebuilds
the expression that a program was compiled from, exchanging the operands of a division back.
-/

namespace OneTwo

namespace Operations

def arithmetic (α : Type) [Arithmetic α] : Operations Unit α where
  literal l s := (Arithmetic.literal l, s)
  apply op lower upper s := (Arithmetic.apply op lower upper, s)

def expressions : Operations Unit Expr where
  literal l s := (.literal l, s)
  apply op lower upper s :=
    let (left, right) := op.inOrder lower upper
    (.apply op left right, s)

end Operations

namespace Program

def run (α : Type) [Arithmetic α] (p : Program) : Logged (Except MachineError α) :=
  ⟨(p.execute (.arithmetic α) ()).1, p.trace⟩

def rebuild (p : Program) : Logged (Except MachineError Expr) :=
  ⟨(p.execute .expressions ()).1, p.trace⟩

end Program

end OneTwo
