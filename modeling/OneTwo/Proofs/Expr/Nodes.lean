import OneTwo.Expr.Evaluate

/-!
The nodes of an expression, and the expressions in which every division has a literal divisor. Direct
evaluation counts the other divisions as 0; where there are none, it computes each node from the
values of its operands.
-/

namespace OneTwo.Expr

@[elab_as_elim]
theorem inOrder_induction {motive : Expr → Prop} (literal : ∀ l, motive (literal l))
    (apply : ∀ op left right, motive (op.inOrder left right).1 →
      motive (op.inOrder left right).2 → motive (apply op left right))
    (e : Expr) : motive e := by
  induction e with
  | literal l => exact literal l
  | apply op left right ihl ihr =>
    have node := apply op left right
    obtain order | order := op.inOrder_cases left right
    · rw [order] at node
      exact node ihl ihr
    · rw [order] at node
      exact node ihr ihl

/-- The expression and every expression below it, in the order in which they are written: operands
before their operator, and the dividend of a division before its divisor. -/
def nodes : Expr → List Expr
  | literal l => [literal l]
  | apply op left right =>
    let (first, second) := op.inOrder left.nodes right.nodes
    first ++ (second ++ [apply op left right])

theorem mem_nodes_apply {n : Expr} {op : Operator} {left right : Expr} :
    n ∈ (apply op left right).nodes ↔
      n ∈ left.nodes ∨ n ∈ right.nodes ∨ n = apply op left right := by
  cases op with
  | add | mul => simp only [nodes, Operator.inOrder, List.mem_append, List.mem_singleton]
  | div =>
    simp only [nodes, Operator.inOrder, List.mem_append, List.mem_singleton]
    exact or_left_comm

theorem mem_nodes_self (e : Expr) : e ∈ e.nodes := by
  cases e with
  | literal l => exact List.mem_singleton_self _
  | apply op left right => exact mem_nodes_apply.2 (.inr (.inr rfl))

theorem forall_apply_mem_nodes_iff {o op : Operator} {P : Expr → Expr → Prop} {left right : Expr} :
    (∀ l r, apply o l r ∈ (apply op left right).nodes → P l r) ↔
      (op = o → P left right) ∧ (∀ l r, apply o l r ∈ left.nodes → P l r) ∧
        ∀ l r, apply o l r ∈ right.nodes → P l r := by
  constructor
  · intro h
    refine ⟨?_, fun l r there => h l r (mem_nodes_apply.2 (.inl there)),
      fun l r there => h l r (mem_nodes_apply.2 (.inr (.inl there)))⟩
    rintro rfl
    exact h left right (mem_nodes_self _)
  · rintro ⟨here, former, latter⟩ l r there
    obtain there | there | same := mem_nodes_apply.1 there
    · exact former l r there
    · exact latter l r there
    · cases same
      exact here rfl

def LiteralDivisors (e : Expr) : Prop :=
  ∀ divisor dividend, apply .div divisor dividend ∈ e.nodes → divisor.isLiteral = true

theorem literalDivisors_of_isLiteral {e : Expr} (h : e.isLiteral = true) : e.LiteralDivisors := by
  intro divisor dividend there
  cases e with
  | literal l => cases List.mem_singleton.1 there
  | apply op left right => cases h

theorem isShortCircuit_apply_eq_false_iff {op : Operator} {left right : Expr} :
    (apply op left right).isShortCircuit = false ↔ (op = .div → left.isLiteral = true) := by
  cases op <;> simp [isShortCircuit]

theorem literalDivisors_apply_iff {op : Operator} {left right : Expr} :
    (apply op left right).LiteralDivisors ↔ (apply op left right).isShortCircuit = false ∧
      left.LiteralDivisors ∧ right.LiteralDivisors := by
  rw [isShortCircuit_apply_eq_false_iff]
  exact forall_apply_mem_nodes_iff

theorem literalDivisors_inOrder_iff {op : Operator} {left right : Expr} :
    (apply op left right).LiteralDivisors ↔ (apply op left right).isShortCircuit = false ∧
      (op.inOrder left right).1.LiteralDivisors ∧ (op.inOrder left right).2.LiteralDivisors := by
  rw [literalDivisors_apply_iff]
  obtain order | order := op.inOrder_cases left right <;> rw [order]
  rw [and_comm (a := left.LiteralDivisors)]

theorem isLiteral_inOrder {op : Operator} {left right : Expr}
    (h : (apply op left right).isShortCircuit = false) (quotient : op = .div) :
    (op.inOrder left right).2.isLiteral = true := by
  subst quotient
  exact isShortCircuit_apply_eq_false_iff.1 h rfl

instance decidableLiteralDivisors : DecidablePred LiteralDivisors
  | literal _ => .isTrue (literalDivisors_of_isLiteral rfl)
  | apply _ left right =>
    have := decidableLiteralDivisors left
    have := decidableLiteralDivisors right
    decidable_of_iff _ literalDivisors_apply_iff.symm

section Evaluate

variable {α : Type} [Arithmetic α]

theorem value_evaluate_of_isShortCircuit {e : Expr} (h : e.isShortCircuit = true) :
    (e.evaluate : Logged α).value = Arithmetic.zero := by
  cases e with
  | literal l => cases h
  | apply op left right =>
    rw [evaluate, if_pos h]
    rfl

theorem value_evaluate_apply {op : Operator} {left right : Expr}
    (h : (apply op left right).isShortCircuit = false) :
    ((apply op left right).evaluate : Logged α).value =
      Arithmetic.apply op (op.inOrder left right).1.evaluate.value
        (op.inOrder left right).2.evaluate.value := by
  rw [evaluate, if_neg (by simp [h]), Operator.inOrder_map evaluate]
  rfl

end Evaluate

end OneTwo.Expr
