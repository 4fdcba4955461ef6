import OneTwo.Proofs.Machine.Balance
import OneTwo.Proofs.Machine.Compiled
import OneTwo.Proofs.Machine.Counting

/-!
Compiled code among other code. A run that gets through from the empty stack gets through above any
stack in the same way: the values below it are neither looked at nor changed. So the code of an
expression, wherever a run comes to it, does what it does alone and leaves one value more. To the
code behind it all expressions are alike: which of them stands there decides nothing but the number
of the tokens in front.
-/

namespace OneTwo

variable {σ α : Type} {ops : Operations σ α}

namespace Machine

/-- The machine `n` with the stack of `m` under its own and its position counted on from `m`. -/
def onTop (n m : Machine σ α) : Machine σ α :=
  ⟨m.position + n.position, n.stack ++ m.stack, n.state⟩

theorem start_onTop (m : Machine σ α) : (start m.state).onTop m = m := rfl

theorem step?_onTop {n after : Machine σ α} {t : Token} (h : n.step? ops t = some after)
    (m : Machine σ α) : (n.onTop m).step? ops t = some (after.onTop m) := by
  obtain ⟨l, rfl, rfl⟩ | ⟨op, lower, upper, rest, rfl, shape, rfl⟩ := step?_cases h
  · rfl
  · have above : (n.onTop m).stack = upper :: lower :: (rest ++ m.stack) := by
      rw [onTop, shape, List.cons_append, List.cons_append]
    simp only [step?, above]
    rfl

theorem advance_onTop {n last : Machine σ α} {tokens : List Token}
    (h : n.advance ops tokens = (last, [])) (m : Machine σ α) :
    (n.onTop m).advance ops tokens = (last.onTop m, []) := by
  induction tokens generalizing n with
  | nil =>
    obtain ⟨rfl, -⟩ := Prod.mk.inj h
    rfl
  | cons t rest ih =>
    rw [advance] at h
    cases taken : n.step? ops t with
    | none => simp [taken] at h
    | some after =>
      simp only [taken] at h
      simp only [advance, step?_onTop taken m]
      exact ih h

theorem position_of_advance {m n : Machine σ α} {tokens : List Token}
    (h : m.advance ops tokens = (n, [])) : n.position = m.position + tokens.length := by
  have step : ∀ {k after : Machine σ α} {t} executed, k.step? ops t = some after →
      k.position = m.position + executed.length →
      after.position = m.position + (executed ++ [t]).length := by
    intro k after t executed taken count
    rw [position_of_step? taken, count, List.length_append, List.length_singleton, Nat.add_assoc]
  have start : m.position = m.position + ([] : List Token).length := rfl
  obtain ⟨executed, whole, count⟩ := advance_invariant _ step start tokens
  rw [h, List.append_nil] at whole
  rw [h, List.nil_append, whole] at count
  exact count

theorem position_of_advance_start {s : σ} {n : Machine σ α} {tokens : List Token}
    (h : (start s).advance ops tokens = (n, [])) : n.position = tokens.length :=
  (position_of_advance h).trans (Nat.zero_add _)

theorem advance_append_of_advance {m n : Machine σ α} {front : List Token}
    (h : m.advance ops front = (n, [])) (back : List Token) :
    m.advance ops (front ++ back) = n.advance ops back := by
  rw [advance_append, h]

theorem advance_of_append {m n : Machine σ α} {front back : List Token}
    (h : m.advance ops (front ++ back) = (n, [])) :
    ∃ between, m.advance ops front = (between, []) := by
  rw [advance_append] at h
  cases run : m.advance ops front with
  | mk between left =>
    cases left with
    | nil => exact ⟨between, rfl⟩
    | cons t rest => simp [run] at h

theorem advance_part_postorder (ops : Operations σ α) (m : Machine σ α) {e : Expr}
    {part : List Token} (inside : part <+: e.postorder) :
    ∃ n, (start m.state).advance ops part = (n, []) ∧ m.advance ops part = (n.onTop m, []) := by
  obtain ⟨rest, whole⟩ := inside
  have through := advance_postorder_self ops (start m.state) e
  rw [← whole] at through
  obtain ⟨n, run⟩ := advance_of_append through
  have above := advance_onTop run m
  rw [start_onTop] at above
  exact ⟨n, run, above⟩

end Machine

namespace Program

def within (front back : List Token) (p : Program) : Program :=
  ⟨front ++ p.tokens ++ back⟩

theorem heightAfter_append (position height : Nat) (front back : List Token) :
    heightAfter position height (front ++ back) =
      heightAfter position height front >>= fun between =>
        heightAfter (position + front.length) between back := by
  induction front generalizing position height with
  | nil => rfl
  | cons t front ih =>
    rw [List.cons_append, heightAfter, heightAfter]
    cases t.heightAfter? height with
    | none => rfl
    | some after =>
      have count : position + (t :: front).length = position + 1 + front.length := by
        rw [List.length_cons]
        omega
      rw [count]
      exact ih (position + 1) after

theorem heightAfter_postorder (position height : Nat) (e : Expr) :
    heightAfter position height e.postorder = .ok (height + 1) := by
  -- Any values of that number will do.
  have run := Machine.heightAfter_advance .expressions
    ⟨position, List.replicate height (.literal .one), ()⟩ e.postorder
  rw [Machine.advance_postorder_self] at run
  simpa [Machine.computed] using run

theorem heightAfter_anywhere (height : Nat) (tokens : List Token) :
    (∃ i < tokens.length, ∀ position,
      heightAfter position height tokens = .error (.underflow (position + i))) ∨
    ∃ after, ∀ position, heightAfter position height tokens = .ok after := by
  obtain ⟨i, least, -⟩ | ⟨enough, after, -, count⟩ := heightAfter_cases 0 height tokens
  · obtain ⟨⟨op, there⟩, -⟩ := least.1
    refine .inl ⟨i, (List.getElem?_eq_some_iff.1 there).1, fun position => ?_⟩
    obtain ⟨j, other, failed⟩ | ⟨enough, -⟩ := heightAfter_cases position height tokens
    · rw [failed, least.unique other]
    · exact absurd least.1 (enough i)
  · refine .inr ⟨after, fun position => ?_⟩
    obtain ⟨j, least, -⟩ | ⟨-, other, ended, total⟩ := heightAfter_cases position height tokens
    · exact absurd least.1 (enough j)
    · rw [ended, Int.natCast_inj.1 (total.trans count.symm)]

theorem heightAfter_within (front back : List Token) (e : Expr) :
    heightAfter 0 0 (e.compile.within front back).tokens =
      heightAfter 0 0 front >>= fun below =>
        heightAfter (front.length + e.size) (below + 1) back := by
  rw [within, Expr.compile, List.append_assoc, heightAfter_append]
  refine bind_congr fun below => ?_
  rw [heightAfter_append, heightAfter_postorder, e.length_postorder, Nat.zero_add]
  rfl

theorem check_within_cases (front back : List Token) :
    (∃ i < front.length, ∀ e : Expr,
      (e.compile.within front back).check = .error (.underflow i)) ∨
    (∃ i < back.length, ∀ e : Expr,
      (e.compile.within front back).check = .error (.underflow (front.length + e.size + i))) ∨
    (∀ e : Expr, (e.compile.within front back).check = .ok ()) ∨
    ∃ count ≥ 2, ∀ e : Expr, (e.compile.within front back).check = .error (.surplus count) := by
  obtain ⟨i, before, failed⟩ | ⟨below, through⟩ := heightAfter_anywhere 0 front
  · refine .inl ⟨i, before, fun e => ?_⟩
    rw [check, heightAfter_within, failed, Nat.zero_add]
    rfl
  · have onward : ∀ e : Expr, heightAfter 0 0 (e.compile.within front back).tokens =
        heightAfter (front.length + e.size) (below + 1) back := by
      intro e
      rw [heightAfter_within, through]
      rfl
    obtain ⟨i, behind, failed⟩ | ⟨after, ended⟩ := heightAfter_anywhere (below + 1) back
    · refine .inr (.inl ⟨i, behind, fun e => ?_⟩)
      rw [check, onward, failed]
      rfl
    · have some : 0 < after := pos_of_heightAfter (ended 0) (.inl (Nat.succ_pos below))
      obtain _ | _ | more := after
      · exact absurd some (Nat.lt_irrefl 0)
      · refine .inr (.inr (.inl fun e => ?_))
        rw [check, onward, ended]
        rfl
      · refine .inr (.inr (.inr ⟨more + 2, Nat.le_add_left 2 more, fun e => ?_⟩))
        rw [check, onward, ended]
        rfl

end Program

/-- The value and the state behind the code of an expression are those of its own run, and so is all
that happens inside; `m` is the machine that comes to it. -/
theorem Expr.compile_closed_block (ops : Operations σ α) (s : σ) (front back : List Token) :
    (∀ m, (Machine.start s).advance ops front = (m, []) → ∀ e : Expr, ∃ value state,
      e.compile.execute ops m.state = (.ok value, state) ∧
      (Machine.start s).advance ops (front ++ e.compile.tokens) =
        (⟨front.length + e.size, value :: m.stack, state⟩, []) ∧
      (e.compile.within front back).halted ops s =
        Machine.advance ops ⟨front.length + e.size, value :: m.stack, state⟩ back ∧
      ∀ part, part <+: e.compile.tokens → ∃ n,
        (Machine.start m.state).advance ops part = (n, []) ∧
        (Machine.start s).advance ops (front ++ part) =
          (⟨front.length + part.length, n.stack ++ m.stack, n.state⟩, [])) ∧
    (∀ e : Expr, ((e.compile.within front back).execute ops s).1.map (fun _ => ()) =
      (e.compile.within front back).check) ∧
    ((∃ i < front.length, ∀ e : Expr,
        (e.compile.within front back).check = .error (.underflow i)) ∨
      (∃ i < back.length, ∀ e : Expr,
        (e.compile.within front back).check = .error (.underflow (front.length + e.size + i))) ∨
      (∀ e : Expr, (e.compile.within front back).check = .ok ()) ∨
      ∃ count ≥ 2, ∀ e : Expr,
        (e.compile.within front back).check = .error (.surplus count)) := by
  refine ⟨?_, fun e => (Program.check_eq_execute ops _ s).symm,
    Program.check_within_cases front back⟩
  intro m reached e
  have place : m.position = front.length := Machine.position_of_advance_start reached
  have onward := Machine.advance_append_of_advance reached
  have behind : m.computed ops e =
      ⟨front.length + e.size, (e.fold ops m.state).1 :: m.stack, (e.fold ops m.state).2⟩ := by
    rw [Machine.computed, place]
  refine ⟨(e.fold ops m.state).1, (e.fold ops m.state).2, Program.execute_compile ops e m.state,
    ?_, ?_, ?_⟩
  · rw [onward, ← behind]
    exact Machine.advance_postorder_self ops m e
  · rw [Program.halted, Program.within, List.append_assoc, onward, ← behind]
    exact Machine.advance_postorder ops m e back
  · intro part inside
    obtain ⟨n, alone, above⟩ := Machine.advance_part_postorder ops m inside
    refine ⟨n, alone, ?_⟩
    rw [onward, above, Machine.onTop, place, Machine.position_of_advance_start alone]

theorem Expr.compile_closed_block_compound_divisor :
    let ops : Operations Nat Nat := ⟨fun l s => (l.value + s, s + 1),
      fun _ lower upper s => (2 * lower + upper + s, s + 1)⟩
    let front : List Token := [.literal .one, .literal .two]
    let back : List Token := [.operator .add, .operator .mul, .operator .div]
    let e : Expr := .apply .div (.apply .add (.literal .two) (.literal .one)) (.literal .one)
    let part : List Token := [.literal .one, .literal .two, .literal .one]
    (Machine.start 0).advance ops front = (⟨2, [3, 1], 2⟩, []) ∧ part <+: e.compile.tokens ∧
      e.compile.execute ops 2 = (.ok 32, 7) ∧
      (Machine.start 0).advance ops (front ++ e.compile.tokens) = (⟨7, [32, 3, 1], 7⟩, []) ∧
      (Machine.start 2).advance ops part = (⟨3, [5, 5, 3], 5⟩, []) ∧
      (Machine.start 0).advance ops (front ++ part) = (⟨5, [5, 5, 3, 3, 1], 5⟩, []) ∧
      (e.compile.within front back).check = .error (.underflow 9) ∧
      ((literal .one).compile.within front back).check = .error (.underflow 5) := by
  intro ops front back e part
  have begun : (Machine.start 0).advance ops front = (⟨2, [3, 1], 2⟩, []) := rfl
  have inside : part <+: e.compile.tokens := ⟨_, rfl⟩
  have own : e.compile.execute ops 2 = (.ok 32, 7) := rfl
  have partly : (Machine.start 2).advance ops part = (⟨3, [5, 5, 3], 5⟩, []) := rfl
  have failed : (e.compile.within front back).check = .error (.underflow 9) := rfl
  obtain ⟨block, -, judged⟩ := compile_closed_block ops 0 front back
  obtain ⟨value, state, alone, reached, -, parts⟩ := block _ begun e
  obtain ⟨n, run, above⟩ := parts part inside
  obtain ⟨⟨⟩, ⟨⟩⟩ := Prod.mk.inj (own.symm.trans alone)
  obtain ⟨rfl, -⟩ := Prod.mk.inj (partly.symm.trans run)
  refine ⟨begun, inside, own, reached, partly, above, failed, ?_⟩
  obtain ⟨i, before, all⟩ | ⟨i, behind, all⟩ | all | ⟨count, -, all⟩ := judged
  · cases failed.symm.trans (all e)
    exact absurd before (by decide)
  · have place : 9 = 7 + i :=
      MachineError.underflow.inj (Except.error.inj (failed.symm.trans (all e)))
    obtain rfl : i = 2 := by omega
    exact all (literal .one)
  · cases failed.symm.trans (all e)
  · cases failed.symm.trans (all e)

end OneTwo
