/-!
The binary operators, and the order of their operands. Sums and products are stored, written and
computed left to right. A division is stored the other way round: its left operand is the divisor
and its right operand the dividend, while the dividend is written and computed first. All modules
take that exchange from `Operator.inOrder`.
-/

namespace OneTwo

inductive Operator where
  | add
  | mul
  | div
  deriving DecidableEq

namespace Operator

def symbol : Operator → String
  | add => "+"
  | mul => "*"
  | div => "/"

theorem symbol_injective {a b : Operator} (h : a.symbol = b.symbol) : a = b := by
  cases a <;> cases b <;> simp_all [symbol]

/-- From the stored order to the written one, and back: see `inOrder_inOrder`. -/
def inOrder {α : Type} (op : Operator) (left right : α) : α × α :=
  match op with
  | div => (right, left)
  | add | mul => (left, right)

theorem inOrder_inOrder {α : Type} (op : Operator) (left right : α) :
    op.inOrder (op.inOrder left right).1 (op.inOrder left right).2 = (left, right) := by
  cases op <;> rfl

theorem inOrder_map {α β : Type} (f : α → β) (op : Operator) (left right : α) :
    op.inOrder (f left) (f right) =
      (f (op.inOrder left right).1, f (op.inOrder left right).2) := by
  cases op <;> rfl

theorem inOrder_cases {α : Type} (op : Operator) (left right : α) :
    op.inOrder left right = (left, right) ∨ op.inOrder left right = (right, left) := by
  cases op with
  | add | mul => exact .inl rfl
  | div => exact .inr rfl

end Operator

end OneTwo
