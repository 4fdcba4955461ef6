import Mathlib.Data.Set.Function
import OneTwo.Proofs.Machine.Advance
import OneTwo.Proofs.Machine.Balance
import OneTwo.Proofs.Machine.Rebuild

/-!
The programs that are accepted are the compiled ones. While a program is rebuilt, the codes of the
expressions on the stack, from the bottom to the top, are together the tokens executed so far: a
literal adds its own code, and an operator joins the two last codes and stands behind them. So the
one expression that is left at the end has the whole program as its code, and compiling is a
bijection onto the accepted programs.
-/

namespace OneTwo

theorem Expr.postorder_expressions (op : Operator) (lower upper : Expr) (s : Unit) :
    (Operations.expressions.apply op lower upper s).1.postorder =
      lower.postorder ++ (upper.postorder ++ [.operator op]) := by
  -- The operands of a division are exchanged when it is built, and back when its code is written.
  simp only [Operations.expressions, postorder_apply, Operator.inOrder_inOrder]

namespace Machine

/-- The codes of the expressions on the stack, the lowest first. -/
def code {σ : Type} (m : Machine σ Expr) : List Token :=
  m.stack.reverse.flatMap Expr.postorder

theorem code_of_step? {m n : Machine Unit Expr} {t : Token} (h : m.step? .expressions t = some n) :
    n.code = m.code ++ [t] := by
  obtain ⟨l, rfl, rfl⟩ | ⟨op, lower, upper, rest, rfl, stack, rfl⟩ := step?_cases h
  · have literal : (Operations.expressions.literal l m.state).1.postorder = [.literal l] := rfl
    simp only [code, next, List.reverse_cons, List.flatMap_append, List.flatMap_singleton, literal]
  · have built := Expr.postorder_expressions op lower upper m.state
    simp only [code, next, stack, List.reverse_cons, List.flatMap_append, List.flatMap_singleton,
      built, List.append_assoc]

end Machine

namespace Program

theorem code_halted (p : Program) :
    (p.halted .expressions ()).1.code ++ (p.halted .expressions ()).2 = p.tokens := by
  have step : ∀ {m n : Machine Unit Expr} {t} executed, m.step? .expressions t = some n →
      m.code = executed → n.code = executed ++ [t] := by
    intro m n t executed taken same
    rw [Machine.code_of_step? taken, same]
  have empty : (Machine.start () : Machine Unit Expr).code = [] := rfl
  obtain ⟨executed, whole, same⟩ :=
    halted_invariant (fun m executed => m.code = executed) step empty p
  rw [same]
  exact whole

theorem compile_of_rebuild {p : Program} {e : Expr} (h : p.rebuild.value = .ok e) :
    e.compile = p := by
  obtain ⟨ended, stack⟩ := Machine.answer_eq_ok_iff.1 h
  have whole := code_halted p
  have code : (p.halted .expressions ()).1.code = e.postorder := by
    simp [Machine.code, halted, stack]
  have same : e.postorder = p.tokens := by
    rw [← code, ← whole]
    simp [halted, ended]
  rw [Expr.compile, same]

theorem rebuild_eq_ok_iff {p : Program} {e : Expr} :
    p.rebuild.value = .ok e ↔ e.compile = p := by
  constructor
  · exact compile_of_rebuild
  · rintro rfl
    rw [rebuild, execute_compile, Expr.fold_expressions]

theorem check_eq_ok_iff {p : Program} : p.check = .ok () ↔ ∃ e : Expr, e.compile = p := by
  rw [← execute_eq_ok_iff .expressions p ()]
  exact exists_congr fun e => rebuild_eq_ok_iff

end Program

theorem Expr.compile_injective : Function.Injective Expr.compile := by
  intro e f same
  have rebuilt : e.compile.rebuild.value = .ok e := Program.rebuild_eq_ok_iff.2 rfl
  have other : e.compile.rebuild.value = .ok f := Program.rebuild_eq_ok_iff.2 same.symm
  rw [rebuilt] at other
  exact Except.ok.inj other

theorem Expr.compile_bijOn_accepted :
    (∀ (p : Program) (e : Expr), p.rebuild.value = .ok e ↔ e.compile = p) ∧
    (∀ p : Program, p.check = .ok () ↔ ∃ e : Expr, e.compile = p) ∧
    Set.BijOn Expr.compile Set.univ {p | p.check = .ok ()} := by
  refine ⟨fun p e => Program.rebuild_eq_ok_iff, fun p => Program.check_eq_ok_iff, ?_, ?_, ?_⟩
  · intro e _
    exact Program.check_eq_ok_iff.2 ⟨e, rfl⟩
  · exact compile_injective.injOn
  · intro p accepted
    obtain ⟨e, same⟩ := Program.check_eq_ok_iff.1 accepted
    exact ⟨e, Set.mem_univ e, same⟩

end OneTwo
