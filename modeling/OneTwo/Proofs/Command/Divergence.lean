import Mathlib.Logic.Function.Iterate
import OneTwo.Proofs.Command.Report
import OneTwo.Proofs.Expr.Fraction
import OneTwo.Proofs.Expr.Masking

/-!
What the exit code of a diverging report tells. Where every divisor is a literal the two results are
one value, and only a value that is unequal to itself could be taken for two. A compound divisor
makes the report fail as long as no node masks the difference, and always if the results are exact.
Repeated squares get beyond the range of doubles within the greatest depth of a frame, and so give
examples of both: they mask a compound divisor, and they make a product that is no number.
-/

namespace OneTwo

namespace Expr

def square (e : Expr) : Expr :=
  apply .mul e e

theorem depth_iterate_square (count : Nat) (e : Expr) :
    (square^[count] e).depth = e.depth + count := by
  induction count with
  | zero => rfl
  | succ count ih =>
    rw [Function.iterate_succ_apply', square, depth, Nat.max_self, ih, Nat.add_assoc]

theorem literalDivisors_iterate_square (count : Nat) (e : Expr) :
    (square^[count] e).LiteralDivisors ↔ e.LiteralDivisors := by
  induction count with
  | zero => rfl
  | succ count ih =>
    have product : (square^[count] e).square.isShortCircuit = false := rfl
    rw [Function.iterate_succ_apply', square, literalDivisors_apply_iff, ← square, ih]
    simp only [product, true_and, and_self]

theorem value_iterate_square {α : Type} [Arithmetic α] (count : Nat) (e : Expr) :
    (square^[count] e).value α = (fun x => Arithmetic.apply .mul x x)^[count] (e.value α) := by
  induction count with
  | zero => rfl
  | succ count ih =>
    rw [Function.iterate_succ_apply', Function.iterate_succ_apply', square, value_apply, ← ih]
    rfl

end Expr

namespace Command

section Verdict

variable {α : Type} [Value α] {e : Expr}

theorem verdict_of_literalDivisors (literals : e.LiteralDivisors)
    (same : Value.same (e.value α) (e.value α) = true) : verdict α e = .ok () := by
  refine verdict_of_same ?_
  rw [← Expr.value_eq_evaluate literals]
  exact same

theorem exitCode_verdict_of_unmasked (compound : ¬e.LiteralDivisors)
    (unmasked : ∀ n ∈ e.nodes, ¬n.Masks α) : exitCode (verdict α e) = 4 := by
  obtain differs | ⟨n, there, masks⟩ := Expr.differs_or_exists_masks (α := α) compound
  · exact exitCode_verdict_of_not_same differs
  · exact absurd masks (unmasked n there)

theorem verdict_eq_ok_iff_of_exact {fraction : α → ℚ}
    (evaluated : fraction (e.evaluate : Logged α).value = (e.evaluate : Logged ℚ).value)
    (ran : fraction (e.value α) = e.value ℚ)
    (compared : Value.same (e.evaluate : Logged α).value (e.value α) = true ↔
      fraction (e.evaluate : Logged α).value = fraction (e.value α)) :
    verdict α e = .ok () ↔ e.LiteralDivisors := by
  rw [verdict_eq_ok_iff, compared, evaluated, ran]
  constructor
  · intro same
    by_contra compound
    exact (Expr.evaluate_lt_value compound).ne same
  · exact fun literals => (Expr.value_eq_evaluate literals).symm

end Verdict

/-- The first result is that of direct evaluation. Nothing is assumed of the values, so they may be
doubles; the report of a value that is unequal to itself is left open. Two results that stand for the
exact fractions, and compare as these do, tell compound divisors without fail. -/
theorem exitCode_report (α : Type) {σ : Type} [Value α] [FileSystem σ] (e : Expr) (w : World σ) :
    let ended := ((report e : Step α (StateM (World σ)) Unit).actOn w).1
    let evaluated : α := (e.evaluate : Logged α).value
    ∃ ran : α, (e.compile.run α).value = .ok ran ∧ (ended = .ok () ∨ exitCode ended = 4) ∧
      (Value.same evaluated ran = true → ended = .ok ()) ∧
      (e.LiteralDivisors → evaluated = ran ∧ (Value.same ran ran = true → ended = .ok ())) ∧
      (¬e.LiteralDivisors → (∀ n ∈ e.nodes, ¬n.Masks α) → exitCode ended = 4) ∧
      ∀ fraction : α → ℚ, fraction evaluated = (e.evaluate : Logged ℚ).value →
        fraction ran = e.value ℚ →
        (Value.same evaluated ran = true ↔ fraction evaluated = fraction ran) →
        (ended = .ok () ↔ e.LiteralDivisors) := by
  rw [actOn_report]
  intro ended evaluated
  have one (literals : e.LiteralDivisors) : evaluated = e.value α :=
    (Expr.value_eq_evaluate literals).symm
  exact ⟨e.value α, Program.value_run_compile α e, verdict_cases α e, verdict_of_same,
    fun literals => ⟨one literals, verdict_of_literalDivisors literals⟩,
    exitCode_verdict_of_unmasked, fun _ => verdict_eq_ok_iff_of_exact⟩

theorem exitCode_report_sums :
    let one : Expr := .literal .one
    let two : Expr := .literal .two
    let compound : Expr := .apply .add one (.apply .div (.apply .add one one) one)
    let simple : Expr := .apply .add one (.apply .div two (.apply .add two one))
    let fraction : Float → ℚ := fun x => if Value.same x 1 then 1 else 3 / 2
    let w : World Directory := ⟨⟨[]⟩, #[], #[]⟩
    (¬compound.LiteralDivisors ∧ (∀ n ∈ compound.nodes, ¬n.Masks Float) ∧
      exitCode ((report compound : Step Float (StateM (World Directory)) Unit).actOn w).1 = 4) ∧
    (simple.LiteralDivisors ∧ Value.same (simple.value Float) (simple.value Float) = true ∧
      ((report simple : Step Float (StateM (World Directory)) Unit).actOn w).1 = .ok ()) ∧
    fraction (compound.evaluate : Logged Float).value = 1 ∧
      fraction (compound.value Float) = 3 / 2 ∧
      (((report compound : Step Float (StateM (World Directory)) Unit).actOn w).1 = .ok () ↔
        compound.LiteralDivisors) := by
  intro one two compound simple fraction w
  have divisor : ¬compound.LiteralDivisors := by decide
  have unmasked : ∀ n ∈ compound.nodes, ¬n.Masks Float := by decide +kernel
  have literals : simple.LiteralDivisors := by decide
  have number : Value.same (simple.value Float) (simple.value Float) = true := by decide +kernel
  have evaluated : fraction (compound.evaluate : Logged Float).value = 1 := by decide +kernel
  have ran : fraction (compound.value Float) = 3 / 2 := by decide +kernel
  have differs : Value.same (compound.evaluate : Logged Float).value (compound.value Float) =
      false := by decide +kernel
  obtain ⟨v, run, -, -, -, fails, exact⟩ := exitCode_report Float compound w
  obtain rfl : compound.value Float = v :=
    Except.ok.inj ((Program.value_run_compile Float compound).symm.trans run)
  obtain ⟨v, run, -, -, agrees, -⟩ := exitCode_report Float simple w
  obtain rfl : simple.value Float = v :=
    Except.ok.inj ((Program.value_run_compile Float simple).symm.trans run)
  refine ⟨⟨divisor, unmasked, fails divisor unmasked⟩, ⟨literals, number,
    (agrees literals).2 number⟩, evaluated, ran, exact fraction ?_ ?_ ?_⟩
  · rw [evaluated]
    decide +kernel
  · rw [ran]
    decide +kernel
  · rw [evaluated, ran, differs]
    decide +kernel

/-- With doubles, three expressions that fit into a frame. The divisor of the first is beyond all
doubles, so to the machine too the quotient is 0; the second rounds a half away; and the third,
whose divisors are literals, multiplies infinity by zero. -/
theorem exitCode_report_beyond_doubles :
    let one : Expr := .literal .one
    let two : Expr := .literal .two
    let vanishing : Expr := .apply .div (Expr.square^[10] two) one
    let rounded : Expr :=
      .apply .add (Expr.square^[6] two) (.apply .div (.apply .add one one) one)
    let undefined : Expr :=
      .apply .mul (Expr.square^[10] two) (Expr.square^[11] (.apply .div two one))
    ∀ w : World Directory,
    (vanishing.depth ≤ Frame.maxBound ∧ ¬vanishing.LiteralDivisors ∧
      ((report vanishing : Step Float (StateM (World Directory)) Unit).actOn w).1 = .ok ()) ∧
    (rounded.depth ≤ Frame.maxBound ∧ ¬rounded.LiteralDivisors ∧
      ((report rounded : Step Float (StateM (World Directory)) Unit).actOn w).1 = .ok ()) ∧
    undefined.depth ≤ Frame.maxBound ∧ undefined.LiteralDivisors ∧
      exitCode ((report undefined : Step Float (StateM (World Directory)) Unit).actOn w).1 = 4 := by
  intro one two vanishing rounded undefined w
  have ended (e : Expr) : ((report e : Step Float (StateM (World Directory)) Unit).actOn w).1 =
      verdict Float e := congrArg Prod.fst (actOn_report Float e w)
  have literals : undefined.LiteralDivisors := by
    have product : undefined.isShortCircuit = false := rfl
    rw [Expr.literalDivisors_apply_iff, Expr.literalDivisors_iterate_square,
      Expr.literalDivisors_iterate_square]
    exact ⟨product, by decide, by decide⟩
  refine ⟨⟨?_, ?_, ?_⟩, ⟨by decide, by decide, ?_⟩, ?_, literals, ?_⟩
  · rw [Expr.depth, Expr.depth_iterate_square]
    decide
  · intro literals
    cases literals _ _ (Expr.mem_nodes_self vanishing)
  · have same : Value.same (vanishing.evaluate : Logged Float).value (vanishing.value Float) =
        true := by
      rw [Expr.value_evaluate_of_isShortCircuit rfl, Expr.value_apply, Operator.inOrder,
        Expr.value_iterate_square]
      decide +kernel
    rw [ended, verdict_of_same same]
  · have same :
        Value.same (rounded.evaluate : Logged Float).value (rounded.value Float) = true := by
      decide +kernel
    rw [ended, verdict_of_same same]
  · rw [Expr.depth, Expr.depth_iterate_square, Expr.depth_iterate_square]
    decide
  · have differs : Value.same (undefined.evaluate : Logged Float).value (undefined.value Float) =
        false := by
      rw [← Expr.value_eq_evaluate literals, Expr.value_apply, Operator.inOrder,
        Expr.value_iterate_square, Expr.value_iterate_square]
      decide +kernel
    rw [ended]
    exact exitCode_verdict_of_not_same differs

end Command

end OneTwo
