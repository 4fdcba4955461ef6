import OneTwo.Machine.Calls

/-!
Maps between operations. Where values and states are mapped so that every operation commutes with
the maps, whole runs commute with them: the machine moves values about and never looks at them. So
keeping a record of the calls changes no run, and a record of calls is mapped call by call.
-/

namespace OneTwo

variable {σ τ α β : Type}

def Call.map (f : α → β) : Call α → Call β
  | literal l result => literal l (f result)
  | apply op lower upper result => apply op (f lower) (f upper) (f result)

namespace Operations

structure Hom (ops : Operations σ α) (others : Operations τ β) where
  value : α → β
  state : σ → τ
  map_literal : ∀ l s, others.literal l (state s) =
    (value (ops.literal l s).1, state (ops.literal l s).2)
  map_apply : ∀ op lower upper s, others.apply op (value lower) (value upper) (state s) =
    (value (ops.apply op lower upper s).1, state (ops.apply op lower upper s).2)

namespace Hom

variable {ops : Operations σ α} {others : Operations τ β}

def machine (h : ops.Hom others) (m : Machine σ α) : Machine τ β :=
  ⟨m.position, m.stack.map h.value, h.state m.state⟩

theorem step?_machine (h : ops.Hom others) (m : Machine σ α) (t : Token) :
    (h.machine m).step? others t = (m.step? ops t).map h.machine := by
  obtain ⟨position, stack, s⟩ := m
  cases t with
  | literal l => simp [Machine.step?, Machine.next, machine, h.map_literal]
  | operator op =>
    cases stack with
    | nil => rfl
    | cons upper below =>
      cases below with
      | nil => rfl
      | cons lower rest => simp [Machine.step?, Machine.next, machine, h.map_apply]

theorem advance_machine (h : ops.Hom others) (m : Machine σ α) (tokens : List Token) :
    (h.machine m).advance others tokens =
      (h.machine (m.advance ops tokens).1, (m.advance ops tokens).2) := by
  induction tokens generalizing m with
  | nil => rfl
  | cons t rest ih =>
    have step := h.step?_machine m t
    rw [Machine.advance, Machine.advance, step]
    cases m.step? ops t with
    | none => rfl
    | some n => exact ih n

theorem answer_machine (h : ops.Hom others) (m : Machine σ α) (rest : List Token) :
    (h.machine m).answer rest = (m.answer rest).map h.value := by
  obtain ⟨position, stack, s⟩ := m
  cases rest with
  | cons t rest => rfl
  | nil =>
    cases stack with
    | nil => rfl
    | cons upper below =>
      cases below with
      | nil => rfl
      | cons lower rest => simp [Machine.answer, machine, Except.map]

theorem execute_map (h : ops.Hom others) (p : Program) (s : σ) :
    p.execute others (h.state s) =
      ((p.execute ops s).1.map h.value, h.state (p.execute ops s).2) := by
  have run := h.advance_machine (.start s) p.tokens
  have start : h.machine (.start s) = .start (h.state s) := rfl
  rw [start] at run
  simp only [Program.execute, run, answer_machine]
  rfl

def recorded (h : ops.Hom others) : ops.recorded.Hom others.recorded where
  value := h.value
  state := fun (s, calls) => (h.state s, calls.map (Call.map h.value))
  map_literal l s := by simp [Operations.recorded, h.map_literal, Call.map]
  map_apply op lower upper s := by simp [Operations.recorded, h.map_apply, Call.map]

theorem calls_map (h : ops.Hom others) (p : Program) (s : σ) :
    p.calls others (h.state s) =
      ((p.calls ops s).1.map h.value, (p.calls ops s).2.map (Call.map h.value)) := by
  have run := h.recorded.execute_map p (s, [])
  have start : h.recorded.state (s, []) = (h.state s, []) := rfl
  rw [start] at run
  simp only [Program.calls, run]
  simp only [recorded, List.map_reverse]

end Hom

def forgetCalls (ops : Operations σ α) : ops.recorded.Hom ops where
  value := id
  state := Prod.fst
  map_literal _ _ := rfl
  map_apply _ _ _ _ := rfl

end Operations

theorem Program.execute_recorded (ops : Operations σ α) (p : Program) (s : σ) :
    p.execute ops s =
      ((p.calls ops s).1, (p.execute ops.recorded (s, [])).2.1) := by
  have run := ops.forgetCalls.execute_map p (s, [])
  have same : (p.execute ops.recorded (s, [])).1.map id = (p.calls ops s).1 := by
    rw [Program.calls]
    cases (p.execute ops.recorded (s, [])).1 <;> rfl
  exact run.trans (Prod.ext same rfl)

end OneTwo
