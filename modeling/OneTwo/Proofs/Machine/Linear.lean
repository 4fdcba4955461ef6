import Mathlib.Data.List.Perm.Basic
import OneTwo.Proofs.Machine.Accepted
import OneTwo.Proofs.Machine.Calls

/-!
The use of values. To tell values apart that happen to be equal, each result is numbered by the
call that gives it; the machine never sees the numbers, so a run on numbered values is the run
itself. In such a run an operand is always the result of an earlier call, no result is an operand
twice, and those that are no operand are the values left on the stack. A run that succeeds thus uses
every result once, except its value.
-/

namespace OneTwo

variable {σ α : Type}

namespace Operations

/-- Each result goes with the number of calls made before it. -/
def numbered (ops : Operations σ α) : Operations (Nat × σ) (Nat × α) where
  literal l := fun (count, s) =>
    let (result, s) := ops.literal l s
    ((count, result), count + 1, s)
  apply op lower upper := fun (count, s) =>
    let (result, s) := ops.apply op lower.2 upper.2 s
    ((count, result), count + 1, s)

def forgetNumbers (ops : Operations σ α) : ops.numbered.Hom ops where
  value := Prod.snd
  state := Prod.snd
  map_literal _ _ := rfl
  map_apply _ _ _ _ := rfl

end Operations

theorem Call.perform_numbered (ops : Operations σ α) (call : Call (Nat × α)) (state : Nat × σ) :
    (call.perform ops.numbered state).1.1 = state.1 ∧
      (call.perform ops.numbered state).2.1 = state.1 + 1 := by
  cases call with
  | literal l result => exact ⟨rfl, rfl⟩
  | apply op lower upper result => exact ⟨rfl, rfl⟩

/-- Calls that use no result twice; `left` are the results that they have not used. -/
structure Linear (calls : List (Call (Nat × α))) (left : List (Nat × α)) : Prop where
  numbered : calls.map (fun call => call.result.1) = List.range calls.length
  earlier : ∀ call ∈ calls, ∀ value ∈ call.operands, value.1 < call.result.1
  once : (calls.flatMap Call.operands ++ left).Perm (calls.map Call.result)

namespace Linear

theorem nil : Linear ([] : List (Call (Nat × α))) [] where
  numbered := rfl
  earlier := by simp
  once := .nil

theorem lt_length {calls : List (Call (Nat × α))} {left : List (Nat × α)} (h : Linear calls left)
    {value : Nat × α} (there : value ∈ left) : value.1 < calls.length := by
  have produced : value ∈ calls.map Call.result :=
    h.once.mem_iff.1 (List.mem_append_right _ there)
  obtain ⟨call, called, rfl⟩ := List.mem_map.1 produced
  have number : call.result.1 ∈ List.range calls.length := by
    rw [← h.numbered]
    exact List.mem_map.2 ⟨call, called, rfl⟩
  exact List.mem_range.1 number

theorem snoc {calls : List (Call (Nat × α))} {call : Call (Nat × α)} {rest : List (Nat × α)}
    (h : Linear calls (call.operands.reverse ++ rest)) (fresh : call.result.1 = calls.length) :
    Linear (calls ++ [call]) (call.result :: rest) where
  numbered := by
    rw [List.map_append, h.numbered, List.map_singleton, fresh, List.length_append,
      List.length_singleton, List.range_succ]
  earlier := by
    intro user used value operand
    rcases List.mem_append.1 used with before | last
    · exact h.earlier user before value operand
    · obtain rfl := List.mem_singleton.1 last
      have there : value ∈ user.operands.reverse ++ rest :=
        List.mem_append_left _ (List.mem_reverse.2 operand)
      rw [fresh]
      exact h.lt_length there
  once := by
    have taken : (calls.flatMap Call.operands ++ call.operands ++ rest).Perm
        (calls.map Call.result) := by
      rw [List.append_assoc]
      exact (((List.reverse_perm _).symm.append_right rest).append_left _).trans h.once
    have moved : (calls.flatMap Call.operands ++ call.operands ++ call.result :: rest).Perm
        (call.result :: calls.map Call.result) :=
      List.perm_middle.trans (taken.cons _)
    rw [List.flatMap_append, List.flatMap_singleton, List.map_append, List.map_singleton]
    exact moved.trans (List.perm_append_singleton _ _).symm

end Linear

namespace Machine

/-- The calls made leave exactly the values on the stack, and the next result will have the next
number. -/
def Accounted (m : RecordedMachine (Nat × σ) (Nat × α)) : Prop :=
  Linear m.made m.stack ∧ m.state.1.1 = m.made.length

theorem Accounted.step {ops : Operations σ α} {m n : RecordedMachine (Nat × σ) (Nat × α)}
    {t : Token} (kept : m.Accounted) (taken : m.step? ops.numbered.recorded t = some n) :
    n.Accounted := by
  obtain ⟨linear, count⟩ := kept
  obtain ⟨call, rest, -, before, after, made, performed⟩ := step?_recorded taken
  obtain ⟨number, counted⟩ := call.perform_numbered ops m.state.1
  rw [performed] at number counted
  rw [before] at linear
  constructor
  · rw [made, after]
    exact linear.snoc (number.trans count)
  · rw [made, List.length_append, List.length_singleton, ← count]
    exact counted

end Machine

namespace Program

theorem accounted_halted (ops : Operations σ α) (p : Program) (s : σ) :
    (p.halted ops.numbered.recorded ((0, s), [])).1.Accounted := by
  have empty : (Machine.start ((0, s), []) : RecordedMachine (Nat × σ) (Nat × α)).Accounted :=
    ⟨.nil, rfl⟩
  obtain ⟨-, -, kept⟩ :=
    halted_invariant (fun m _ => m.Accounted) (fun _ taken kept => kept.step taken) empty p
  exact kept

/-- The calls of a program that is rebuilt as `e` are those of a fold over `e`; of a division the
dividend is computed first and is the lower operand. A run that underflows has made the calls of the
tokens in front, any other run those of all its tokens. And no value is used twice or lost. -/
theorem execute_folds_rebuilt (ops : Operations σ α) (p : Program) (s : σ) :
    (∀ e, p.rebuild.value = .ok e → ∃ calls, e.Computes ops s calls (e.fold ops s) ∧
      p.execute ops s = (.ok (e.fold ops s).1, (e.fold ops s).2) ∧
      p.calls ops s = (.ok (e.fold ops s).1, calls)) ∧
    (p.calls ops s).1 = (p.execute ops s).1 ∧
    (∀ position, (p.execute ops s).1 = .error (.underflow position) →
      position < p.tokens.length ∧
      (p.calls ops s).2.map Call.token = p.tokens.take position) ∧
    ((∀ position, (p.execute ops s).1 ≠ .error (.underflow position)) →
      (p.calls ops s).2.map Call.token = p.tokens) ∧
    p.calls ops s = ((p.calls ops.numbered (0, s)).1.map Prod.snd,
      (p.calls ops.numbered (0, s)).2.map (Call.map Prod.snd)) ∧
    ∃ left, Linear (p.calls ops.numbered (0, s)).2 left ∧
      ∀ value, (p.calls ops.numbered (0, s)).1 = .ok value → left = [value] := by
  refine ⟨?_, calls_fst ops p s, fun _ => map_token_calls_of_underflow ops p s,
    map_token_calls ops p s, ops.forgetNumbers.calls_map p (0, s), ?_⟩
  · intro e rebuilt
    obtain rfl := rebuild_eq_ok_iff.1 rebuilt
    obtain ⟨calls, computed, called⟩ := calls_compile ops e s
    exact ⟨calls, computed, execute_compile ops e s, called⟩
  · refine ⟨_, (accounted_halted ops p s).1, ?_⟩
    intro value finished
    exact (Machine.answer_eq_ok_iff.1 finished).2

theorem execute_folds_rebuilt_compound_divisor :
    let ops : Operations Nat Nat := ⟨fun l s => (l.value + s, s + 1),
      fun _ lower upper s => (2 * lower + upper + s, s + 1)⟩
    let p : Program := ⟨[.literal .one, .literal .two, .literal .one, .operator .add,
      .operator .div]⟩
    let q : Program := ⟨[.literal .one, .operator .mul, .literal .two]⟩
    let e : Expr := .apply .div (.apply .add (.literal .two) (.literal .one)) (.literal .one)
    let calls : List (Call Nat) := [.literal .one 1, .literal .two 3, .literal .one 3,
      .apply .add 3 3 12, .apply .div 1 12 18]
    (p.rebuild.value = .ok e ∧ e.Computes ops 0 calls (18, 5) ∧ p.execute ops 0 = (.ok 18, 5) ∧
      p.calls ops 0 = (.ok 18, calls)) ∧
    ((q.execute ops 0).1 = .error (.underflow 1) ∧
      (q.calls ops 0).2.map Call.token = [.literal .one]) := by
  intro ops p q e calls
  have rebuilt : p.rebuild.value = .ok e := rfl
  have failed : (q.execute ops 0).1 = .error (.underflow 1) := rfl
  obtain ⟨made, computed, executed, called⟩ := (execute_folds_rebuilt ops p 0).1 e rebuilt
  obtain rfl : calls = made := congrArg Prod.snd called
  obtain ⟨-, -, before, -⟩ := execute_folds_rebuilt ops q 0
  obtain ⟨-, tokens⟩ := before 1 failed
  exact ⟨⟨rebuilt, computed, executed, called⟩, failed, tokens⟩

end Program

end OneTwo
