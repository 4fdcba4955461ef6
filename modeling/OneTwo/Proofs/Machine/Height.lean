import OneTwo.Proofs.Expr.Nodes
import OneTwo.Proofs.Frame.Usable
import OneTwo.Proofs.Machine.Counting

/-!
The stack that compiled code needs. Wherever a run is inside the code of an expression, the stack
that it came with lies untouched below: above it is at least one value, and there are at most as
many as the longest path down has nodes. For while the first operand of a node is computed, nothing
waits above that stack, and while the second is computed, one value does: it takes the place that
the node itself adds to the path.
-/

namespace OneTwo

variable {σ α : Type} {ops : Operations σ α}

namespace Expr

theorem depth_apply (op : Operator) (left right : Expr) :
    (apply op left right).depth =
      max (op.inOrder left right).1.depth (op.inOrder left right).2.depth + 1 := by
  cases op with
  | add | mul => rfl
  | div => rw [depth, Nat.max_comm, Operator.inOrder]

theorem prefix_postorder_apply {op : Operator} {left right : Expr} {front : List Token}
    (part : front <+: (apply op left right).postorder) :
    front <+: (op.inOrder left right).1.postorder ∨
      (∃ rest, rest ≠ [] ∧ rest <+: (op.inOrder left right).2.postorder ∧
        front = (op.inOrder left right).1.postorder ++ rest) ∨
      front = (apply op left right).postorder := by
  rw [postorder_apply, ← List.append_assoc] at part ⊢
  rcases List.prefix_concat_iff.1 part with whole | ⟨back, split⟩
  · exact .inr (.inr whole)
  · rcases List.append_eq_append_iff.1 split with ⟨more, inside, -⟩ | ⟨rest, behind, ahead⟩
    · exact .inl ⟨more, inside.symm⟩
    · by_cases started : rest = []
      · rw [started, List.append_nil] at behind
        exact .inl (behind ▸ List.prefix_rfl)
      · exact .inr (.inl ⟨rest, started, ⟨back, ahead.symm⟩, behind⟩)

end Expr

namespace Machine

variable {m n : Machine σ α} {e : Expr}

/-- The stack of `m` is part of that of `n`, under at least one value and at most `room`. -/
structure Below (m : Machine σ α) (room : Nat) (n : Machine σ α) : Prop where
  kept : m.stack <:+ n.stack
  lt : m.stack.length < n.stack.length
  le : n.stack.length ≤ m.stack.length + room

theorem Below.mono {room more : Nat} (h : m.Below room n) (larger : room ≤ more) :
    m.Below more n :=
  ⟨h.kept, h.lt, h.le.trans (Nat.add_le_add_left larger _)⟩

theorem below_computed (m : Machine σ α) (e : Expr) : m.Below (e.depth + 1) (m.computed ops e) where
  kept := List.suffix_cons _ _
  lt := Nat.lt_succ_self _
  le := Nat.add_le_add_left (Nat.le_add_left 1 e.depth) _

theorem Below.of_computed {room : Nat} (h : (m.computed ops e).Below room n) :
    m.Below (room + 1) n := by
  have waiting : (m.computed ops e).stack.length = m.stack.length + 1 := rfl
  have lt := h.lt
  have le := h.le
  constructor
  · exact (List.suffix_cons _ _).trans h.kept
  · omega
  · omega

theorem advance_of_prefix_postorder (ops : Operations σ α) (m : Machine σ α) {front : List Token}
    (started : front ≠ []) (part : front <+: e.postorder) :
    ∃ n, m.advance ops front = (n, []) ∧ m.Below (e.depth + 1) n := by
  -- In written order, and over any machine: the second operand starts above the value of the first.
  induction e using Expr.inOrder_induction generalizing m front with
  | literal l =>
    have whole : front = (Expr.literal l).postorder :=
      part.eq_of_length_le (List.length_pos_iff.2 started)
    rw [whole]
    exact ⟨_, advance_postorder_self ops m _, below_computed m _⟩
  | apply op left right first second =>
    have depth := Expr.depth_apply op left right
    rcases Expr.prefix_postorder_apply part with inside | ⟨rest, more, inside, rfl⟩ | whole
    · obtain ⟨n, run, below⟩ := first m started inside
      exact ⟨n, run, below.mono (by omega)⟩
    · obtain ⟨n, run, below⟩ := second (m.computed ops (op.inOrder left right).1) more inside
      rw [advance_postorder]
      exact ⟨n, run, below.of_computed.mono (by omega)⟩
    · rw [whole]
      exact ⟨_, advance_postorder_self ops m _, below_computed m _⟩

end Machine

namespace Program

/-- Wherever a run of the program is, at least one value is on the stack if a token has been
executed, and never more than `room` values are. -/
def RunsWithin (room : Nat) (p : Program) : Prop :=
  ∀ (σ α : Type) (ops : Operations σ α) (s : σ) (front back : List Token),
    front ++ back = p.tokens → ∃ n,
      (Machine.start s).advance ops front = (n, []) ∧ p.halted ops s = n.advance ops back ∧
        (front ≠ [] → 1 ≤ n.stack.length) ∧ n.stack.length ≤ room

theorem RunsWithin.mono {p : Program} {room more : Nat} (h : p.RunsWithin room)
    (larger : room ≤ more) : p.RunsWithin more := by
  intro σ α ops s front back split
  obtain ⟨n, run, onward, some, le⟩ := h σ α ops s front back split
  exact ⟨n, run, onward, some, le.trans larger⟩

theorem runsWithin_compile (e : Expr) : e.compile.RunsWithin (e.depth + 1) := by
  intro σ α ops s front back split
  have onward : ∀ n, (Machine.start s).advance ops front = (n, []) →
      e.compile.halted ops s = n.advance ops back := by
    intro n run
    rw [halted, ← split, Machine.advance_append, run]
  by_cases started : front = []
  · rw [started] at onward ⊢
    exact ⟨.start s, rfl, onward _ rfl, fun some => absurd rfl some, Nat.zero_le _⟩
  · obtain ⟨n, run, below⟩ :=
      Machine.advance_of_prefix_postorder ops (.start s) started ⟨back, split⟩
    have le : n.stack.length ≤ 0 + (e.depth + 1) := below.le
    rw [Nat.zero_add] at le
    exact ⟨n, run, onward n run, fun _ => below.lt, le⟩

end Program

theorem Token.countP_compile (e : Expr) :
    e.compile.tokens.countP (fun t => !t.isOperator) =
      e.compile.tokens.countP Token.isOperator + 1 := by
  have accepted : e.compile.check = .ok () := Program.check_eq_ok_iff.2 ⟨e, rfl⟩
  have balanced : balance e.compile.tokens = 1 := (Program.check_eq_ok_iff_balance.1 accepted).2
  rw [balance] at balanced
  omega

/-- Room for one value more than the depth is enough, and so is room for one more than the bound of
a frame that the expression was read from. -/
theorem Expr.compile_within_depth (e : Expr) :
    e.compile.tokens.length = e.size ∧
    e.compile.tokens.countP (fun t => !t.isOperator) =
      e.compile.tokens.countP Token.isOperator + 1 ∧
    e.compile.RunsWithin (e.depth + 1) ∧
    ∀ mode bound slots, (Frame.decode mode bound slots).value = .ok e →
      e.compile.RunsWithin (bound + 1) := by
  refine ⟨e.length_postorder, Token.countP_compile e, Program.runsWithin_compile e, ?_⟩
  intro mode bound slots decoded
  have fits : e.depth ≤ bound := (Frame.usable_of_decode decoded).depth_le
  exact (Program.runsWithin_compile e).mono (Nat.succ_le_succ fits)

theorem Expr.compile_within_depth_quotients :
    let e : Expr := .apply .div (.apply .div (.literal .one) (.literal .two))
      (.apply .div (.literal .two) (.literal .one))
    let slots : List Slot := [⟨.operator .div, 9⟩, .ofKind (.operator .div), .literal 7,
      .literal 2, .ofKind (.operator .div), .literal 2, .ofKind (.operator .add), .filler]
    let front : List Token := [.literal .one, .literal .two, .operator .div, .literal .two,
      .literal .one]
    let back : List Token := [.operator .div, .operator .div]
    (Frame.decode .resilient 2 slots).value = .ok e ∧ front ++ back = e.compile.tokens ∧
      ∃ n, (Machine.start ()).advance .expressions front = (n, []) ∧
        e.compile.halted .expressions () = n.advance .expressions back ∧
        front ≠ [] ∧ 1 ≤ n.stack.length ∧ n.stack.length ≤ 2 + 1 ∧ n.stack.length = 3 := by
  intro e slots front back
  have decoded : (Frame.decode .resilient 2 slots).value = .ok e := by decide +kernel
  have split : front ++ back = e.compile.tokens := rfl
  have started : front ≠ [] := by decide
  obtain ⟨-, -, -, within⟩ := compile_within_depth e
  obtain ⟨n, run, onward, some, le⟩ :=
    within .resilient 2 slots decoded Unit Expr .expressions () front back split
  have full : ((Machine.start ()).advance .expressions front).1.stack.length = 3 := rfl
  rw [run] at full
  exact ⟨decoded, split, n, run, onward, started, some started, le, full⟩

end OneTwo
