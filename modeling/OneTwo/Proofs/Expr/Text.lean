import OneTwo.Expr.Text
import OneTwo.Proofs.Expr.Nodes
import OneTwo.Proofs.Text.Parts

/-!
Infix text is unambiguous: whatever follows it, the expression can be told, since a parenthesis says
that operands and an operator follow, and these can be told one after the other.
-/

namespace OneTwo

open Text (PrefixFree prefixFree_of_length)

theorem Literal.prefixFree_symbol : PrefixFree Literal.symbol :=
  prefixFree_of_length (n := 1) (fun l => by cases l <;> rfl) fun _ _ => symbol_injective

theorem Operator.prefixFree_symbol : PrefixFree Operator.symbol :=
  prefixFree_of_length (n := 1) (fun op => by cases op <;> rfl) fun _ _ => symbol_injective

theorem Operator.inOrder_injective {α : Type} {op : Operator} {left right left' right' : α}
    (h : op.inOrder left right = op.inOrder left' right') : left = left' ∧ right = right' := by
  cases op <;> simp_all [inOrder]

namespace Expr

theorem toList_text_apply (op : Operator) (left right : Expr) :
    (apply op left right).text.toList =
      '(' :: ((op.inOrder left right).1.text.toList ++
        ' ' :: (op.symbol.toList ++ ' ' :: ((op.inOrder left right).2.text.toList ++ [')']))) := by
  simp [text, Operator.inOrder_map text]

theorem prefixFree_text : PrefixFree text := by
  intro a
  -- In written order, so that each operand is read off what is left by the one before it.
  induction a using inOrder_induction with
  | literal l =>
    intro b s t h
    cases b with
    | literal l' =>
      obtain ⟨rfl, rest⟩ := Literal.prefixFree_symbol l l' s t h
      exact ⟨rfl, rest⟩
    | apply op left right =>
      rw [toList_text_apply] at h
      cases l <;> cases h
  | apply op left right first second =>
    intro b s t h
    cases b with
    | literal l =>
      rw [toList_text_apply] at h
      cases l <;> cases h
    | apply op' left' right' =>
      simp only [toList_text_apply, List.cons_append, List.append_assoc, List.nil_append,
        List.cons.injEq, true_and] at h
      obtain ⟨former, behindFirst⟩ := first _ _ _ h
      obtain ⟨rfl, behindOperator⟩ := Operator.prefixFree_symbol op op' _ _
        (List.cons.inj behindFirst).2
      obtain ⟨latter, behindSecond⟩ := second _ _ _ (List.cons.inj behindOperator).2
      obtain ⟨rfl, rfl⟩ := Operator.inOrder_injective (Prod.ext former latter)
      exact ⟨rfl, (List.cons.inj behindSecond).2⟩

end Expr

end OneTwo
