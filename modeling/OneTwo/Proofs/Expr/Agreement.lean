import OneTwo.Machine.Run
import OneTwo.Proofs.Expr.Nodes
import OneTwo.Proofs.Machine.Calls

/-!
Direct evaluation and the machine agree where every divisor is a literal. They then perform the same
operations: at each node that of its operator, on the values of its operands, of a division the
dividend first. So they agree in every arithmetic, whatever its operations are.
-/

namespace OneTwo

variable {α : Type} [Arithmetic α]

namespace Expr

/-- What the machine makes of an expression: the value of every division, whatever its divisor. -/
def value (α : Type) [Arithmetic α] (e : Expr) : α :=
  (e.fold (.arithmetic α) ()).1

theorem value_apply (op : Operator) (left right : Expr) :
    (apply op left right).value α =
      Arithmetic.apply op ((op.inOrder left right).1.value α)
        ((op.inOrder left right).2.value α) := by
  rw [value, fold_apply]
  rfl

/-- The operation of direct evaluation at a node, with the values of its operands and its own. -/
def operation (α : Type) [Arithmetic α] : Expr → Call α
  | literal l => .literal l (literal l).evaluate.value
  | apply op left right =>
    let (lower, upper) := op.inOrder left.evaluate.value right.evaluate.value
    .apply op lower upper (apply op left right).evaluate.value

theorem map_operation_nodes_apply {op : Operator} {left right : Expr}
    (h : (apply op left right).isShortCircuit = false) :
    (apply op left right).nodes.map (operation α) =
      (op.inOrder left right).1.nodes.map (operation α) ++
        ((op.inOrder left right).2.nodes.map (operation α) ++
          [.apply op (op.inOrder left right).1.evaluate.value
            (op.inOrder left right).2.evaluate.value
            (Arithmetic.apply op (op.inOrder left right).1.evaluate.value
              (op.inOrder left right).2.evaluate.value)]) := by
  have whole := value_evaluate_apply (α := α) h
  simp only [nodes, Operator.inOrder_map nodes, List.map_append, List.map_singleton, operation,
    whole, Operator.inOrder_map fun e : Expr => (e.evaluate : Logged α).value]

theorem eq_operations_of_computes {e : Expr} {s : Unit} {calls : List (Call α)} {result : α × Unit}
    (h : e.Computes (.arithmetic α) s calls result) (literals : e.LiteralDivisors) :
    calls = e.nodes.map (operation α) ∧ result.1 = e.evaluate.value := by
  induction h with
  | literal l s => exact ⟨rfl, rfl⟩
  | @apply op left right s t u x y front back sum _ _ ihl ihr =>
    obtain ⟨whole, literall, literalr⟩ := literalDivisors_apply_iff.1 literals
    obtain ⟨rfl, rfl⟩ := ihl literall
    obtain ⟨rfl, rfl⟩ := ihr literalr
    cases op with
    | div => exact absurd rfl sum
    | add | mul => exact ⟨(map_operation_nodes_apply whole).symm, (value_evaluate_apply whole).symm⟩
  | divide _ _ ihr ihl =>
    obtain ⟨whole, literall, literalr⟩ := literalDivisors_apply_iff.1 literals
    obtain ⟨rfl, rfl⟩ := ihr literalr
    obtain ⟨rfl, rfl⟩ := ihl literall
    exact ⟨(map_operation_nodes_apply whole).symm, (value_evaluate_apply whole).symm⟩

theorem value_eq_evaluate {e : Expr} (literals : e.LiteralDivisors) :
    e.value α = (e.evaluate : Logged α).value := by
  obtain ⟨calls, computed, -⟩ := e.computes_fold (.arithmetic α) ()
  exact (eq_operations_of_computes computed literals).2

end Expr

namespace Program

theorem value_run_compile (α : Type) [Arithmetic α] (e : Expr) :
    (e.compile.run α).value = .ok (e.value α) := by
  rw [run, execute_compile]
  rfl

theorem run_compile_of_literalDivisors (α : Type) [Arithmetic α] (e : Expr)
    (literals : e.LiteralDivisors) :
    (e.compile.run α).value = .ok (e.evaluate : Logged α).value ∧
      e.compile.calls (.arithmetic α) () =
        (.ok (e.evaluate : Logged α).value, e.nodes.map (Expr.operation α)) := by
  obtain ⟨calls, computed, called⟩ := calls_compile (.arithmetic α) e ()
  obtain ⟨rfl, same⟩ := Expr.eq_operations_of_computes computed literals
  rw [value_run_compile, Expr.value_eq_evaluate literals, called, same]
  exact ⟨rfl, rfl⟩

theorem run_compile_nested_quotients :
    let _ : Arithmetic Int :=
      ⟨fun l => l.value, 7, fun op x y => if op = .div then 5 * x - y else 3 * x + y⟩
    let e : Expr := .apply .div (.literal .two) (.apply .add
      (.apply .div (.literal .one) (.literal .two))
      (.apply .div (.literal .two) (.apply .mul (.literal .two) (.literal .one))))
    e.LiteralDivisors ∧ (e.evaluate : Logged Int).value = 298 ∧
      (e.compile.run Int).value = .ok 298 ∧
      e.compile.calls (.arithmetic Int) () = (.ok 298, e.nodes.map (Expr.operation Int)) := by
  intro _ e
  have literals : e.LiteralDivisors := by decide
  have direct : (e.evaluate : Logged Int).value = 298 := by decide
  obtain ⟨run, calls⟩ := run_compile_of_literalDivisors Int e literals
  rw [direct] at run calls
  exact ⟨literals, direct, run, calls⟩

end Program

end OneTwo
