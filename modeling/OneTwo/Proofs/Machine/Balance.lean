import OneTwo.Machine.Run
import OneTwo.Proofs.Machine.Advance

/-!
The static check foretells every run. A token does the same to the height of the stack whatever the
values and the operations are, so the heights of a run are those that the check counts; and how a
run ends depends on its last height and on its place alone. Runs over different values thus fail on
the same programs, with the same error.
-/

namespace OneTwo

variable {σ α : Type}

theorem Machine.heightAfter_advance (ops : Operations σ α) (m : Machine σ α)
    (tokens : List Token) :
    Program.heightAfter m.position m.stack.length tokens =
      match m.advance ops tokens with
      | (n, []) => .ok n.stack.length
      | (n, _ :: _) => .error (.underflow n.position) := by
  induction tokens generalizing m with
  | nil => rfl
  | cons t rest ih =>
    have height := m.heightAfter?_length ops t
    rw [Program.heightAfter, Machine.advance]
    cases taken : m.step? ops t with
    | none =>
      rw [taken, Option.map_none] at height
      simp only [height]
    | some n =>
      have behind := position_of_step? taken
      rw [taken, Option.map_some] at height
      simp only [height]
      rw [← behind]
      exact ih n

namespace Program

theorem check_eq_execute (ops : Operations σ α) (p : Program) (s : σ) :
    p.check = (p.execute ops s).1.map fun _ => () := by
  have heights : heightAfter 0 0 p.tokens = _ :=
    (Machine.start s).heightAfter_advance ops p.tokens
  rw [check, heights, execute_eq_halted, halted]
  obtain ⟨⟨position, stack, state⟩, rest⟩ := (Machine.start s).advance ops p.tokens
  cases rest with
  | cons t rest => rfl
  | nil =>
    cases stack with
    | nil => rfl
    | cons upper below => cases below <;> rfl

theorem execute_eq_ok_iff (ops : Operations σ α) (p : Program) (s : σ) :
    (∃ value, (p.execute ops s).1 = .ok value) ↔ p.check = .ok () := by
  rw [check_eq_execute ops p s]
  cases (p.execute ops s).1 <;> simp [Except.map]

theorem execute_eq_error_iff (ops : Operations σ α) (p : Program) (s : σ) (error : MachineError) :
    (p.execute ops s).1 = .error error ↔ p.check = .error error := by
  rw [check_eq_execute ops p s]
  cases (p.execute ops s).1 <;> simp [Except.map]

theorem execute_fails_as_checked (ops : Operations σ α) (p : Program) (s : σ) :
    ((∃ value, (p.execute ops s).1 = .ok value) ↔ p.check = .ok ()) ∧
    (∀ error, (p.execute ops s).1 = .error error ↔ p.check = .error error) ∧
    ∀ (β : Type) [Arithmetic β],
      (∀ error, (p.run β).value = .error error ↔ p.rebuild.value = .error error) ∧
      ((∃ value, (p.run β).value = .ok value) ↔ p.check = .ok ()) ∧
      ((∃ e, p.rebuild.value = .ok e) ↔ p.check = .ok ()) := by
  refine ⟨execute_eq_ok_iff ops p s, execute_eq_error_iff ops p s, fun β _ => ⟨?_, ?_, ?_⟩⟩
  · intro error
    have run := execute_eq_error_iff (.arithmetic β) p () error
    have rebuild := execute_eq_error_iff .expressions p () error
    exact run.trans rebuild.symm
  · exact execute_eq_ok_iff (.arithmetic β) p ()
  · exact execute_eq_ok_iff .expressions p ()

end Program

end OneTwo
