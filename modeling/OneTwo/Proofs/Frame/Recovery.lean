import OneTwo.Proofs.Frame.Mended
import OneTwo.Proofs.Frame.Subtree

/-!
Resilient reading as a plain recursion on the levels. Since a node that is read takes a fixed number
of slots, the right operand of an operator is looked for behind all the slots that the left one
owns, whatever those hold: no cursor has to be handed on, and what an operand is read as depends on
its slots alone.
-/

namespace OneTwo.Frame

/-- What resilient reading makes of the slots ahead, apart from its remarks. -/
def recovered : (levels : Nat) → Cursor → Except FrameError Expr
  | _, ⟨position, []⟩ => .error (.unexpectedEnd position)
  | _, ⟨position, ⟨.filler, _⟩ :: _⟩ => .error (.unexpectedFiller position)
  | _, ⟨_, ⟨.literal, value⟩ :: _⟩ => .ok (.literal ((Literal.ofInt? value.toNat).getD .one))
  | 0, ⟨_, ⟨.operator _, _⟩ :: _⟩ => .ok (.literal .one)
  | levels + 1, ⟨position, ⟨.operator op, _⟩ :: ahead⟩ => do
    let left ← recovered levels ⟨position + 1, ahead⟩
    let right ← recovered levels (Cursor.skip ⟨position + 1, ahead⟩ (size levels))
    return .apply op left right

section Node

variable (levels position : Nat) (value : UInt8) (ahead : List Slot)

theorem recovered_nil : recovered levels ⟨position, []⟩ = .error (.unexpectedEnd position) := by
  cases levels <;> rfl

theorem recovered_filler :
    recovered levels ⟨position, ⟨.filler, value⟩ :: ahead⟩ =
      .error (.unexpectedFiller position) := by
  cases levels <;> rfl

theorem recovered_literal :
    recovered levels ⟨position, ⟨.literal, value⟩ :: ahead⟩ =
      .ok (.literal ((Literal.ofInt? value.toNat).getD .one)) := by
  cases levels <;> rfl

theorem recovered_operator (op : Operator) :
    recovered (levels + 1) ⟨position, ⟨.operator op, value⟩ :: ahead⟩ = do
      let left ← recovered levels ⟨position + 1, ahead⟩
      let right ← recovered levels (Cursor.skip ⟨position + 1, ahead⟩ (size levels))
      return .apply op left right := rfl

end Node

theorem outcome_readNode_resilient (bound : Nat) {levels : Nat} (supported : levels ≤ maxBound)
    (c : Cursor) :
    outcome ((readNode .resilient bound levels).run c) =
      (recovered levels c).map fun e => (e, c.skip (size levels)) := by
  induction levels, c using node_induction with
  | nil levels position => rw [readNode_nil, recovered_nil]; rfl
  | filler levels position value ahead => rw [readNode_filler, recovered_filler]; rfl
  | literal levels position value ahead =>
    rw [outcome_readNode_literal_resilient, recovered_literal, size_eq_padding_add_one supported,
      Cursor.skip_cons]
    rfl
  | atBound position op value ahead =>
    rw [outcome_readNode_atBound_resilient, ← Cursor.skip_cons position ⟨.operator op, value⟩]
    rfl
  | operator levels position op value ahead ih =>
    have below : levels ≤ maxBound := Nat.le_of_succ_le supported
    have slots : size (levels + 1) = size levels + size levels + 1 := by
      rw [size_succ supported]
      omega
    -- Whatever the left operand is read as, the cursor is left where the recursion looks next.
    rw [readNode_operator_succ, recovered_operator, outcome_bind, ih _ below, slots,
      Cursor.skip_cons, ← Cursor.skip_skip]
    cases recovered levels ⟨position + 1, ahead⟩ with
    | error error => rfl
    | ok left =>
      change outcome ((readNode .resilient bound levels).run _ >>= _) = _
      rw [outcome_bind, ih _ below]
      cases recovered levels (Cursor.skip ⟨position + 1, ahead⟩ (size levels)) <;> rfl

theorem value_decode_resilient {bound : Nat} (supported : bound ≤ maxBound) (slots : List Slot) :
    (decode .resilient bound slots).value = recovered bound (Cursor.ofList slots) := by
  rw [value_decode, outcome_readFrame_resilient supported,
    outcome_readNode_resilient bound supported]
  cases recovered bound (Cursor.ofList slots) <;> rfl

theorem recovered_of_size_le {levels : Nat} (supported : levels ≤ maxBound) {c : Cursor}
    (enough : size levels ≤ c.remaining) :
    (∃ e, recovered levels c = .ok e) ∨
      ∃ index < size levels,
        recovered levels c = .error (.unexpectedFiller (c.position + index)) := by
  have ending := (ending_readNode levels supported c).of_le enough
  rw [outcome_readNode_resilient levels supported] at ending
  cases read : recovered levels c with
  | ok e => exact .inl ⟨e, rfl⟩
  | error error =>
    rw [read] at ending
    obtain ⟨e, impossible⟩ | ⟨index, inside, -, same⟩ := ending
    · cases impossible
    · exact .inr ⟨index, inside, congrArg Except.error (Except.error.inj same)⟩

theorem depth_le_of_recovered {levels : Nat} (supported : levels ≤ maxBound) {c : Cursor} {e : Expr}
    (h : recovered levels c = .ok e) : e.depth ≤ levels := by
  have read := outcome_readNode_resilient levels supported c
  rw [h] at read
  exact (mends_of_readNode supported read).1

theorem recovered_operator_eq_ok_iff {levels position : Nat} {op : Operator} {value : UInt8}
    {ahead : List Slot} {e : Expr} :
    recovered (levels + 1) ⟨position, ⟨.operator op, value⟩ :: ahead⟩ = .ok e ↔
      ∃ left right, e = .apply op left right ∧ recovered levels ⟨position + 1, ahead⟩ = .ok left ∧
        recovered levels (Cursor.skip ⟨position + 1, ahead⟩ (size levels)) = .ok right := by
  rw [recovered_operator]
  cases recovered levels ⟨position + 1, ahead⟩ with
  | error error => simp [bind, Except.bind]
  | ok left =>
    cases recovered levels (Cursor.skip ⟨position + 1, ahead⟩ (size levels)) with
    | error error => simp [bind, Except.bind]
    | ok right => simp [bind, Except.bind, pure, Except.pure, eq_comm]

theorem exists_operator_of_recovered {levels : Nat} {c : Cursor} {op : Operator} {left right : Expr}
    (h : recovered levels c = .ok (.apply op left right)) :
    ∃ below value ahead, levels = below + 1 ∧ c.ahead = ⟨.operator op, value⟩ :: ahead ∧
      recovered below ⟨c.position + 1, ahead⟩ = .ok left ∧
      recovered below (Cursor.skip ⟨c.position + 1, ahead⟩ (size below)) = .ok right := by
  induction levels, c using node_induction with
  | nil levels position =>
    rw [recovered_nil] at h
    cases h
  | filler levels position value ahead =>
    rw [recovered_filler] at h
    cases h
  | literal levels position value ahead =>
    rw [recovered_literal] at h
    cases h
  | atBound position op value ahead => cases h
  | operator levels position op value ahead _ =>
    obtain ⟨l, r, same, readl, readr⟩ := recovered_operator_eq_ok_iff.1 h
    cases same
    exact ⟨levels, value, ahead, rfl, rfl, readl, readr⟩

end OneTwo.Frame
