import OneTwo.Expr.Compile
import OneTwo.Machine.Basic

/-!
What the machine makes of compiled code. The code of an expression is a closed block: whatever
follows it and whatever is on the stack below, it runs to its end, leaves that stack as it was and
puts one value on top. The value is the fold of the expression with the operations of the machine,
their state handed on in the order in which nodes are written; of a division that is the dividend
first, so it becomes the lower of the two operands.
-/

namespace OneTwo

variable {σ α : Type}

namespace Expr

def fold (ops : Operations σ α) : Expr → σ → α × σ
  | literal l => ops.literal l
  | apply op left right => fun s =>
    let (first, second) := op.inOrder (left.fold ops) (right.fold ops)
    let lower := first s
    let upper := second lower.2
    ops.apply op lower.1 upper.1 upper.2

theorem fold_apply (ops : Operations σ α) (op : Operator) (left right : Expr) (s : σ) :
    (apply op left right).fold ops s =
      let lower := (op.inOrder left right).1.fold ops s
      let upper := (op.inOrder left right).2.fold ops lower.2
      ops.apply op lower.1 upper.1 upper.2 := by
  rw [fold, Operator.inOrder_map (fold ops)]

theorem postorder_apply (op : Operator) (left right : Expr) :
    (apply op left right).postorder =
      (op.inOrder left right).1.postorder ++
        ((op.inOrder left right).2.postorder ++ [.operator op]) := by
  simp only [postorder, Operator.inOrder_map postorder, List.append_assoc]

theorem size_apply (op : Operator) (left right : Expr) :
    (apply op left right).size =
      (op.inOrder left right).1.size + (op.inOrder left right).2.size + 1 := by
  cases op with
  | add | mul => rfl
  | div => rw [size, Nat.add_comm left.size, Operator.inOrder]

end Expr

namespace Machine

def computed (ops : Operations σ α) (m : Machine σ α) (e : Expr) : Machine σ α :=
  ⟨m.position + e.size, (e.fold ops m.state).1 :: m.stack, (e.fold ops m.state).2⟩

theorem step?_computed (ops : Operations σ α) (m : Machine σ α) (op : Operator)
    (left right : Expr) :
    ((m.computed ops (op.inOrder left right).1).computed ops (op.inOrder left right).2).step? ops
      (.operator op) = some (m.computed ops (.apply op left right)) := by
  have behind := Expr.size_apply op left right
  simp only [step?, next, computed, Expr.fold_apply, behind, Option.some.injEq, mk.injEq,
    and_self, and_true]
  omega

theorem advance_postorder (ops : Operations σ α) (m : Machine σ α) (e : Expr)
    (rest : List Token) :
    m.advance ops (e.postorder ++ rest) = (m.computed ops e).advance ops rest := by
  induction e generalizing m rest with
  | literal l => rfl
  | apply op left right ihl ihr =>
    have ended := step?_computed ops m op left right
    rw [Expr.postorder_apply]
    obtain order | order := op.inOrder_cases left right <;> rw [order] at ended ⊢ <;>
      simp only [List.append_assoc, ihl, ihr, List.singleton_append, advance, ended]

theorem advance_postorder_self (ops : Operations σ α) (m : Machine σ α) (e : Expr) :
    m.advance ops e.postorder = (m.computed ops e, []) := by
  have run := advance_postorder ops m e []
  rw [List.append_nil] at run
  exact run

end Machine

namespace Program

theorem execute_compile (ops : Operations σ α) (e : Expr) (s : σ) :
    e.compile.execute ops s = (.ok (e.fold ops s).1, (e.fold ops s).2) := by
  rw [execute, Expr.compile, Machine.advance_postorder_self]
  rfl

end Program

end OneTwo
