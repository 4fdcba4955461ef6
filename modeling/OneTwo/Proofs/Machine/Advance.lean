import OneTwo.Machine.Basic

/-!
What holds along every run. A step either pushes a value or exchanges the two topmost values for
one; whatever such steps keep true of a machine and of the tokens behind it is true of them wherever
the run stops, at the end or in front of an operator that underflows.
-/

namespace OneTwo

variable {σ α : Type} {ops : Operations σ α}

namespace Machine

theorem step?_cases {m n : Machine σ α} {t : Token} (h : m.step? ops t = some n) :
    (∃ l, t = .literal l ∧ n = m.next m.stack (ops.literal l m.state)) ∨
      ∃ op lower upper rest, t = .operator op ∧ m.stack = upper :: lower :: rest ∧
        n = m.next rest (ops.apply op lower upper m.state) := by
  cases t with
  | literal l => exact .inl ⟨l, rfl, (Option.some.inj h).symm⟩
  | operator op =>
    cases shape : m.stack with
    | nil => simp [step?, shape] at h
    | cons upper below =>
      cases below with
      | nil => simp [step?, shape] at h
      | cons lower rest =>
        have after : m.next rest (ops.apply op lower upper m.state) = n := by
          simpa [step?, shape] using h
        exact .inr ⟨op, lower, upper, rest, rfl, rfl, after.symm⟩

/-- An invariant speaks of the machine and of the tokens that it has executed so far. -/
theorem advance_invariant (Inv : Machine σ α → List Token → Prop)
    (step : ∀ {m n t} executed, m.step? ops t = some n → Inv m executed → Inv n (executed ++ [t]))
    {m : Machine σ α} {executed : List Token} (before : Inv m executed) (tokens : List Token) :
    ∃ further, further ++ (m.advance ops tokens).2 = tokens ∧
      Inv (m.advance ops tokens).1 (executed ++ further) := by
  induction tokens generalizing m executed with
  | nil =>
    refine ⟨[], rfl, ?_⟩
    rw [List.append_nil]
    exact before
  | cons t rest ih =>
    cases taken : m.step? ops t with
    | none =>
      have stopped : m.advance ops (t :: rest) = (m, t :: rest) := by simp only [advance, taken]
      refine ⟨[], ?_, ?_⟩
      · rw [stopped, List.nil_append]
      · rw [stopped, List.append_nil]
        exact before
    | some n =>
      have onward : m.advance ops (t :: rest) = n.advance ops rest := by
        simp only [advance, taken]
      have after : Inv n (executed ++ [t]) := step executed taken before
      obtain ⟨further, whole, kept⟩ := ih after
      refine ⟨t :: further, ?_, ?_⟩
      · rw [onward, List.cons_append, whole]
      · rw [onward, List.append_cons]
        exact kept

theorem answer_eq_ok_iff {m : Machine σ α} {rest : List Token} {value : α} :
    m.answer rest = .ok value ↔ rest = [] ∧ m.stack = [value] := by
  cases rest with
  | cons t rest => simp [answer]
  | nil =>
    cases shape : m.stack with
    | nil => simp [answer, shape]
    | cons upper below => cases below <;> simp [answer, shape]

theorem answer_eq_underflow_iff {m : Machine σ α} {rest : List Token} {position : Nat} :
    m.answer rest = .error (.underflow position) ↔ rest ≠ [] ∧ m.position = position := by
  cases rest with
  | cons t rest => simp [answer]
  | nil =>
    cases shape : m.stack with
    | nil => simp [answer, shape]
    | cons upper below => cases below <;> simp [answer, shape]

end Machine

namespace Program

def halted (ops : Operations σ α) (p : Program) (s : σ) : Machine σ α × List Token :=
  (Machine.start s).advance ops p.tokens

theorem execute_eq_halted (ops : Operations σ α) (p : Program) (s : σ) :
    p.execute ops s =
      ((p.halted ops s).1.answer (p.halted ops s).2, (p.halted ops s).1.state) := rfl

theorem halted_invariant (Inv : Machine σ α → List Token → Prop)
    (step : ∀ {m n t} executed, m.step? ops t = some n → Inv m executed → Inv n (executed ++ [t]))
    {s : σ} (empty : Inv (.start s) []) (p : Program) :
    ∃ executed, executed ++ (p.halted ops s).2 = p.tokens ∧ Inv (p.halted ops s).1 executed :=
  Machine.advance_invariant Inv step empty p.tokens

end Program

end OneTwo
