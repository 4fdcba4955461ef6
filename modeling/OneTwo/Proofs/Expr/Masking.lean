import OneTwo.Proofs.Expr.Agreement
import OneTwo.Value

/-!
How a difference between direct evaluation and the machine comes to be seen. It arises at a division
that counts as 0, and each operator above hands it on, unless it masks it: two different operands
may give results that compare equal, when a sum is rounded, say, and even a division that counts as
0 may be 0 to the machine, when its quotient is too small. So an expression with a compound divisor
has two different results, or one of its nodes masks a difference.
-/

namespace OneTwo.Expr

variable (α : Type) [Value α]

def Differs (e : Expr) : Prop :=
  Value.same (e.evaluate : Logged α).value (e.value α) = false

/-- The node is a division that counts as 0, and its quotient on the machine compares equal to 0; or
a difference comes to it from an operand, and its own results do not differ. -/
def Masks : Expr → Prop
  | literal _ => False
  | apply op left right =>
    (apply op left right).isShortCircuit = true ∧
        Value.same Arithmetic.zero ((apply op left right).value α) = true ∨
      (left.Differs α ∨ right.Differs α) ∧ ¬(apply op left right).Differs α

instance (e : Expr) : Decidable (e.Differs α) :=
  inferInstanceAs (Decidable (_ = _))

instance : DecidablePred (Masks α)
  | literal _ => inferInstanceAs (Decidable False)
  | apply .. => inferInstanceAs (Decidable (_ ∧ _ ∨ _ ∧ _))

variable {α}

theorem differs_iff_of_isShortCircuit {e : Expr} (short : e.isShortCircuit = true) :
    e.Differs α ↔ Value.same Arithmetic.zero (e.value α) = false := by
  rw [Differs, value_evaluate_of_isShortCircuit short]

theorem differs_or_exists_masks {e : Expr} (compound : ¬e.LiteralDivisors) :
    e.Differs α ∨ ∃ n ∈ e.nodes, n.Masks α := by
  induction e with
  | literal l => exact absurd (literalDivisors_of_isLiteral rfl) compound
  | apply op left right ihl ihr =>
    by_cases here : (apply op left right).Differs α
    · exact .inl here
    · refine .inr ?_
      cases short : (apply op left right).isShortCircuit with
      | true =>
        have vanishes : Value.same Arithmetic.zero ((apply op left right).value α) = true :=
          eq_true_of_ne_false fun seen =>
            here ((differs_iff_of_isShortCircuit short).2 seen)
        exact ⟨_, mem_nodes_self _, .inl ⟨short, vanishes⟩⟩
      | false =>
        by_cases literals : left.LiteralDivisors
        · have other : ¬right.LiteralDivisors := fun also =>
            compound (literalDivisors_apply_iff.2 ⟨short, literals, also⟩)
          obtain differs | ⟨n, there, masks⟩ := ihr other
          · exact ⟨_, mem_nodes_self _, .inr ⟨.inr differs, here⟩⟩
          · exact ⟨n, mem_nodes_apply.2 (.inr (.inl there)), masks⟩
        · obtain differs | ⟨n, there, masks⟩ := ihl literals
          · exact ⟨_, mem_nodes_self _, .inr ⟨.inl differs, here⟩⟩
          · exact ⟨n, mem_nodes_apply.2 (.inl there), masks⟩

end OneTwo.Expr
