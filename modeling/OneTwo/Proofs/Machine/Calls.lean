import Mathlib.Tactic.ByContra
import OneTwo.Proofs.Machine.Advance
import OneTwo.Proofs.Machine.Compiled
import OneTwo.Proofs.Machine.Hom

/-!
The calls of a run. Each step makes one call, that of its token: the operands come off the top of
the stack, the result goes there, and nothing below is touched. So the calls of a run are those of
the tokens that it executes, in their order, also if it fails. Of compiled code they are the calls
of a fold over the expression, the operand that is written first having all its calls made first.
-/

namespace OneTwo

variable {σ α : Type}

namespace Call

def token : Call α → Token
  | literal l _ => .literal l
  | apply op _ _ _ => .operator op

def operands : Call α → List α
  | literal _ _ => []
  | apply _ lower upper _ => [lower, upper]

def result : Call α → α
  | literal _ result => result
  | apply _ _ _ result => result

def perform (ops : Operations σ α) : Call α → σ → α × σ
  | literal l _ => ops.literal l
  | apply op lower upper _ => ops.apply op lower upper

end Call

theorem Operations.apply_recorded (ops : Operations σ α) (op : Operator) (lower upper : α) (s : σ)
    (calls : List (Call α)) :
    ops.recorded.apply op lower upper (s, calls) =
      ((ops.apply op lower upper s).1, (ops.apply op lower upper s).2,
        .apply op lower upper (ops.apply op lower upper s).1 :: calls) := rfl

abbrev RecordedMachine (σ α : Type) :=
  Machine (σ × List (Call α)) α

namespace Machine

def made (m : RecordedMachine σ α) : List (Call α) :=
  m.state.2.reverse

theorem step?_recorded {ops : Operations σ α} {m n : RecordedMachine σ α} {t : Token}
    (h : m.step? ops.recorded t = some n) :
    ∃ call rest, call.token = t ∧ m.stack = call.operands.reverse ++ rest ∧
      n.stack = call.result :: rest ∧ n.made = m.made ++ [call] ∧
      call.perform ops m.state.1 = (call.result, n.state.1) := by
  obtain ⟨position, stack, s, calls⟩ := m
  obtain ⟨l, rfl, rfl⟩ | ⟨op, lower, upper, rest, rfl, shape, rfl⟩ := step?_cases h
  · refine ⟨.literal l (ops.literal l s).1, stack, rfl, rfl, rfl, ?_, rfl⟩
    exact List.reverse_cons
  · refine ⟨.apply op lower upper (ops.apply op lower upper s).1, rest, rfl, shape, rfl, ?_, rfl⟩
    exact List.reverse_cons

end Machine

namespace Program

variable (ops : Operations σ α) (p : Program) (s : σ)

theorem calls_fst : (p.calls ops s).1 = (p.execute ops s).1 := by
  rw [execute_recorded ops p s]

theorem calls_snd : (p.calls ops s).2 = (p.halted ops.recorded (s, [])).1.made := rfl

theorem map_token_calls_append :
    (p.calls ops s).2.map Call.token ++ (p.halted ops.recorded (s, [])).2 = p.tokens ∧
      (p.calls ops s).2.length = (p.halted ops.recorded (s, [])).1.position := by
  have step : ∀ {m n : RecordedMachine σ α} {t} executed, m.step? ops.recorded t = some n →
      m.made.map Call.token = executed ∧ m.made.length = m.position →
      n.made.map Call.token = executed ++ [t] ∧ n.made.length = n.position := by
    intro m n t executed taken kept
    obtain ⟨call, rest, token, -, -, made, -⟩ := Machine.step?_recorded taken
    have onward : n.position = m.position + 1 := Machine.position_of_step? taken
    rw [made]
    constructor
    · rw [List.map_append, kept.1, List.map_singleton, token]
    · rw [List.length_append, List.length_singleton, kept.2, onward]
  have empty : (Machine.start (s, []) : RecordedMachine σ α).made.map Call.token = [] ∧
      (Machine.start (s, []) : RecordedMachine σ α).made.length = 0 := ⟨rfl, rfl⟩
  obtain ⟨executed, whole, same, places⟩ :=
    halted_invariant (fun m executed => m.made.map Call.token = executed ∧
      m.made.length = m.position) step empty p
  rw [calls_snd, same]
  exact ⟨whole, places⟩

theorem map_token_calls_of_underflow {position : Nat}
    (h : (p.execute ops s).1 = .error (.underflow position)) :
    position < p.tokens.length ∧ (p.calls ops s).2.map Call.token = p.tokens.take position := by
  obtain ⟨whole, places⟩ := map_token_calls_append ops p s
  rw [← calls_fst] at h
  obtain ⟨unfinished, place⟩ := Machine.answer_eq_underflow_iff.1 h
  have count : ((p.calls ops s).2.map Call.token).length = position := by
    rw [List.length_map, places]
    exact place
  constructor
  · have total := congrArg List.length whole
    have left := List.length_pos_iff.2 unfinished
    rw [List.length_append, count] at total
    rw [← total]
    exact Nat.lt_add_of_pos_right left
  · calc
      (p.calls ops s).2.map Call.token =
          ((p.calls ops s).2.map Call.token ++ (p.halted ops.recorded (s, [])).2).take position := by
        rw [← count, List.take_left]
      _ = p.tokens.take position := by rw [whole]

theorem map_token_calls (h : ∀ position, (p.execute ops s).1 ≠ .error (.underflow position)) :
    (p.calls ops s).2.map Call.token = p.tokens := by
  obtain ⟨whole, -⟩ := map_token_calls_append ops p s
  rw [← calls_fst] at h
  have finished : (p.halted ops.recorded (s, [])).2 = [] := by
    by_contra unfinished
    exact h _ (Machine.answer_eq_underflow_iff.2 ⟨unfinished, rfl⟩)
  rw [finished, List.append_nil] at whole
  exact whole

end Program

namespace Expr

/-- The computation of an expression from a state: its calls in their order, its value and the state
behind it. Sums and products compute their left operand first and pass it first; a division does
both with its right operand, the dividend. -/
inductive Computes (ops : Operations σ α) : Expr → σ → List (Call α) → α × σ → Prop where
  | literal (l : Literal) (s : σ) :
      Computes ops (.literal l) s [.literal l (ops.literal l s).1] (ops.literal l s)
  | apply {op : Operator} {left right : Expr} {s t u : σ} {x y : α} {front back : List (Call α)} :
      op ≠ .div → Computes ops left s front (x, t) → Computes ops right t back (y, u) →
      Computes ops (.apply op left right) s
        (front ++ (back ++ [.apply op x y (ops.apply op x y u).1])) (ops.apply op x y u)
  | divide {divisor dividend : Expr} {s t u : σ} {x y : α} {front back : List (Call α)} :
      Computes ops dividend s front (x, t) → Computes ops divisor t back (y, u) →
      Computes ops (.apply .div divisor dividend) s
        (front ++ (back ++ [.apply .div x y (ops.apply .div x y u).1])) (ops.apply .div x y u)

theorem computes_fold (ops : Operations σ α) (e : Expr) (s : σ) :
    ∃ calls, e.Computes ops s calls (e.fold ops s) ∧
      ∀ before, e.fold ops.recorded (s, before) =
        ((e.fold ops s).1, (e.fold ops s).2, calls.reverse ++ before) := by
  induction e generalizing s with
  | literal l => exact ⟨_, .literal l s, fun before => rfl⟩
  | apply op left right ihl ihr =>
    cases op with
    | add | mul =>
      obtain ⟨front, lower, recorded⟩ := ihl s
      obtain ⟨back, upper, onward⟩ := ihr (left.fold ops s).2
      refine ⟨_, .apply (by decide) lower upper, fun before => ?_⟩
      simp only [fold, Operator.inOrder, recorded, onward, Operations.apply_recorded,
        List.reverse_append, List.reverse_singleton, List.append_assoc, List.cons_append,
        List.nil_append]
    | div =>
      obtain ⟨front, lower, recorded⟩ := ihr s
      obtain ⟨back, upper, onward⟩ := ihl (right.fold ops s).2
      refine ⟨_, .divide lower upper, fun before => ?_⟩
      simp only [fold, Operator.inOrder, recorded, onward, Operations.apply_recorded,
        List.reverse_append, List.reverse_singleton, List.append_assoc, List.cons_append,
        List.nil_append]

end Expr

theorem Program.calls_compile (ops : Operations σ α) (e : Expr) (s : σ) :
    ∃ calls, e.Computes ops s calls (e.fold ops s) ∧
      e.compile.calls ops s = (.ok (e.fold ops s).1, calls) := by
  obtain ⟨calls, computed, recorded⟩ := e.computes_fold ops s
  refine ⟨calls, computed, ?_⟩
  simp only [Program.calls, execute_compile, recorded, List.append_nil, List.reverse_reverse]

end OneTwo
