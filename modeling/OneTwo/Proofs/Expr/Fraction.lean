import Mathlib.Algebra.Order.Field.Basic
import Mathlib.Algebra.Order.Field.Rat
import OneTwo.Proofs.Expr.Agreement

/-!
Direct evaluation and the machine over exact fractions. All values of the machine are positive, so
nothing is ever divided by zero, and a division that counts as 0 is worth less than it is to the
machine. No operation above it makes up for that: sums, products and quotients grow strictly with
each operand, as long as the other one is positive, and the divisors that direct evaluation divides
by are literals, on which both agree. So the two results are equal only where every divisor is a
literal.
-/

namespace OneTwo

instance : Arithmetic ℚ where
  literal l := l.value
  zero := 0
  apply
    | .add, x, y => x + y
    | .mul, x, y => x * y
    | .div, x, y => x / y

/-- Fractions where dividing by zero gives nothing, and nothing comes of nothing. -/
instance : Arithmetic (Option ℚ) where
  literal l := some (Arithmetic.literal l)
  zero := some Arithmetic.zero
  apply op x y := do
    let x ← x
    let y ← y
    if op = .div ∧ y = 0 then none else some (Arithmetic.apply op x y)

namespace Fraction

theorem literal_pos (l : Literal) : 0 < (Arithmetic.literal l : ℚ) := by
  cases l <;> decide

section Apply

variable {op : Operator} {x x' y y' : ℚ}

theorem apply_pos (hx : 0 < x) (hy : 0 < y) : 0 < Arithmetic.apply op x y := by
  cases op with
  | add => exact add_pos hx hy
  | mul => exact mul_pos hx hy
  | div => exact div_pos hx hy

theorem apply_nonneg (hx : 0 ≤ x) (hy : 0 ≤ y) : 0 ≤ Arithmetic.apply op x y := by
  cases op with
  | add => exact add_nonneg hx hy
  | mul => exact mul_nonneg hx hy
  | div => exact div_nonneg hx hy

theorem apply_le_apply (hx : 0 ≤ x) (xx' : x ≤ x') (hy : 0 ≤ y) (yy' : y ≤ y')
    (divisor : op = .div → y = y') : Arithmetic.apply op x y ≤ Arithmetic.apply op x' y' := by
  cases op with
  | add => exact add_le_add xx' yy'
  | mul => exact mul_le_mul xx' yy' hy (hx.trans xx')
  | div =>
    -- A greater divisor would make the quotient smaller, so there is one divisor only.
    obtain rfl := divisor rfl
    exact div_le_div_of_nonneg_right xx' hy

theorem apply_lt_apply_left (xx' : x < x') (hy : 0 < y) :
    Arithmetic.apply op x y < Arithmetic.apply op x' y := by
  cases op with
  | add => exact add_lt_add_left xx' y
  | mul => exact mul_lt_mul_of_pos_right xx' hy
  | div => exact div_lt_div_of_pos_right xx' hy

theorem apply_lt_apply_right (hx : 0 < x) (yy' : y < y') (sum : op ≠ .div) :
    Arithmetic.apply op x y < Arithmetic.apply op x y' := by
  cases op with
  | add => exact add_lt_add_right yy' x
  | mul => exact mul_lt_mul_of_pos_left yy' hx
  | div => exact absurd rfl sum

theorem apply_some (divisor : op = .div → y ≠ 0) :
    Arithmetic.apply op (some x) (some y) = some (Arithmetic.apply op x y) := by
  have defined : ¬(op = .div ∧ y = 0) := fun ⟨quotient, zero⟩ => divisor quotient zero
  exact if_neg defined

end Apply

end Fraction

namespace Expr

open Fraction

theorem value_pos (e : Expr) : 0 < e.value ℚ := by
  induction e using inOrder_induction with
  | literal l => exact literal_pos l
  | apply op left right first second =>
    rw [value_apply]
    exact apply_pos first second

theorem value_option (e : Expr) : e.value (Option ℚ) = some (e.value ℚ) := by
  induction e using inOrder_induction with
  | literal l => rfl
  | apply op left right first second =>
    rw [value_apply, value_apply, first, second]
    exact apply_some fun _ => (value_pos _).ne'

theorem evaluate_divisor {op : Operator} {left right : Expr}
    (h : (apply op left right).isShortCircuit = false) (quotient : op = .div) :
    ((op.inOrder left right).2.evaluate : Logged ℚ).value = (op.inOrder left right).2.value ℚ :=
  (value_eq_evaluate (literalDivisors_of_isLiteral (isLiteral_inOrder h quotient))).symm

theorem evaluate_option (e : Expr) :
    (e.evaluate : Logged (Option ℚ)).value = some (e.evaluate : Logged ℚ).value := by
  induction e using inOrder_induction with
  | literal l => rfl
  | apply op left right first second =>
    cases short : (apply op left right).isShortCircuit with
    | true =>
      rw [value_evaluate_of_isShortCircuit short, value_evaluate_of_isShortCircuit short]
      rfl
    | false =>
      rw [value_evaluate_apply short, value_evaluate_apply short, first, second]
      refine apply_some fun quotient => ?_
      rw [evaluate_divisor short quotient]
      exact (value_pos _).ne'

theorem evaluate_bounds (e : Expr) :
    0 ≤ (e.evaluate : Logged ℚ).value ∧ (e.evaluate : Logged ℚ).value ≤ e.value ℚ := by
  induction e using inOrder_induction with
  | literal l => exact ⟨(literal_pos l).le, le_rfl⟩
  | apply op left right first second =>
    cases short : (apply op left right).isShortCircuit with
    | true =>
      rw [value_evaluate_of_isShortCircuit short]
      exact ⟨le_rfl, (value_pos _).le⟩
    | false =>
      rw [value_evaluate_apply short, value_apply]
      exact ⟨apply_nonneg first.1 second.1,
        apply_le_apply first.1 first.2 second.1 second.2 (evaluate_divisor short)⟩

theorem evaluate_lt_value {e : Expr} (h : ¬e.LiteralDivisors) :
    (e.evaluate : Logged ℚ).value < e.value ℚ := by
  induction e using inOrder_induction with
  | literal l => exact absurd (literalDivisors_of_isLiteral rfl) h
  | apply op left right first second =>
    cases short : (apply op left right).isShortCircuit with
    | true =>
      rw [value_evaluate_of_isShortCircuit short]
      exact value_pos _
    | false =>
      have bounds := evaluate_bounds (op.inOrder left right).1
      have bounds' := evaluate_bounds (op.inOrder left right).2
      rw [value_evaluate_apply short, value_apply]
      by_cases former : (op.inOrder left right).1.LiteralDivisors
      · have latter : ¬(op.inOrder left right).2.LiteralDivisors := fun latter =>
          h (literalDivisors_inOrder_iff.2 ⟨short, former, latter⟩)
        have sum : op ≠ .div := fun quotient =>
          latter (literalDivisors_of_isLiteral (isLiteral_inOrder short quotient))
        rw [← value_eq_evaluate former]
        exact apply_lt_apply_right (value_pos _) (second latter) sum
      · calc
          _ ≤ Arithmetic.apply op (op.inOrder left right).1.evaluate.value
              ((op.inOrder left right).2.value ℚ) :=
            apply_le_apply bounds.1 le_rfl bounds'.1 bounds'.2 (evaluate_divisor short)
          _ < _ := apply_lt_apply_left (first former) (value_pos _)

/-- What the machine computes is positive, direct evaluation is never above it, and the two agree on
the expressions without a compound divisor and on no other. Neither divides by zero. -/
theorem evaluate_eq_run_compile_iff (e : Expr) :
    ∃ v : ℚ, (e.compile.run ℚ).value = .ok v ∧ 0 < v ∧
      (e.compile.run (Option ℚ)).value = .ok (some v) ∧
      (e.evaluate : Logged (Option ℚ)).value = some (e.evaluate : Logged ℚ).value ∧
      0 ≤ (e.evaluate : Logged ℚ).value ∧ (e.evaluate : Logged ℚ).value ≤ v ∧
      ((e.evaluate : Logged ℚ).value = v ↔ e.LiteralDivisors) := by
  obtain ⟨nonneg, below⟩ := evaluate_bounds e
  refine ⟨e.value ℚ, Program.value_run_compile ℚ e, value_pos e, ?_, evaluate_option e, nonneg,
    below, ?_, fun literals => (value_eq_evaluate literals).symm⟩
  · rw [Program.value_run_compile, value_option]
  · intro same
    by_contra compound
    exact (evaluate_lt_value compound).ne same

end Expr

end OneTwo
