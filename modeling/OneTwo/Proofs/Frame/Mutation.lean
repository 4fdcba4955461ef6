import OneTwo.Proofs.Frame.Dependence

/-!
Changed slots. Each node owns the slots from its address to as many further as a frame of its height
has, and no slot outside them has a part in what the node is read as. So if slots are changed within
those that one node owns, resilient reading goes on as before around it: what it gives is the former
expression with another subtree there, or a filler among the changed slots stops it.
-/

namespace OneTwo.Frame

/-- The sequences differ at most from one index on and before another. -/
def DifferWithin (start stop : Nat) (slots others : List Slot) : Prop :=
  ∀ index, others[index]? ≠ slots[index]? → start ≤ index ∧ index < stop

namespace DifferWithin

variable {start stop : Nat} {slots others : List Slot}

theorem eq_of_lt (h : DifferWithin start stop slots others) {index : Nat} (before : index < start) :
    others[index]? = slots[index]? := by
  by_contra different
  exact Nat.not_le.2 before (h index different).1

theorem eq_of_le (h : DifferWithin start stop slots others) {index : Nat} (behind : stop ≤ index) :
    others[index]? = slots[index]? := by
  by_contra different
  exact Nat.not_le.2 (h index different).2 behind

theorem uncons {s : Slot} (h : DifferWithin (start + 1) (stop + 1) (s :: slots) others) :
    ∃ rest, others = s :: rest ∧ DifferWithin start stop slots rest := by
  have first := h.eq_of_lt (Nat.succ_pos start)
  cases others with
  | nil => cases first
  | cons t rest =>
    obtain rfl : t = s := Option.some.inj first
    refine ⟨rest, rfl, fun index different => ?_⟩
    have within := h (index + 1) different
    omega

theorem drop {count : Nat} (h : DifferWithin (start + count) (stop + count) slots others) :
    DifferWithin start stop (slots.drop count) (others.drop count) := by
  intro index different
  rw [List.getElem?_drop, List.getElem?_drop] at different
  have within := h (count + index) different
  omega

theorem left {levels count : Nat} {path : List Side} {s : Slot}
    (h : DifferWithin (address (levels + 1) (.left :: path))
      (address (levels + 1) (.left :: path) + count) (s :: slots) others) :
    ∃ rest, others = s :: rest ∧
      DifferWithin (address levels path) (address levels path + count) slots rest := by
  rw [address, Nat.add_sub_cancel, Nat.add_right_comm] at h
  exact h.uncons

theorem right {levels count : Nat} {path : List Side} {s : Slot}
    (h : DifferWithin (address (levels + 1) (.right :: path))
      (address (levels + 1) (.right :: path) + count) (s :: slots) others) :
    ∃ rest, others = s :: rest ∧ DifferWithin (address levels path + size levels)
      (address levels path + count + size levels) slots rest := by
  rw [address, Nat.add_sub_cancel, Nat.add_right_comm] at h
  exact h.uncons

end DifferWithin

section Operands

variable {levels start stop position place : Nat} {value : UInt8} {ahead rest : List Slot}

theorem recovered_of_left_changed (op : Operator) {right : Expr}
    (read : recovered levels (Cursor.skip ⟨position, ahead⟩ (size levels)) = .ok right)
    (changed : DifferWithin start stop ahead rest) (inside : stop ≤ size levels) :
    recovered (levels + 1) ⟨place, ⟨.operator op, value⟩ :: rest⟩ =
      (recovered levels ⟨place + 1, rest⟩).map fun new => .apply op new right := by
  have kept : recovered levels (Cursor.skip ⟨place + 1, rest⟩ (size levels)) = .ok right := by
    refine recovered_of_agree read (.of_eq fun index _ => ?_)
    simp only [Cursor.skip, List.getElem?_drop]
    exact changed.eq_of_le (Nat.le_add_right_of_le inside)
  rw [recovered_operator, kept]
  cases recovered levels ⟨place + 1, rest⟩ <;> rfl

theorem recovered_of_right_changed (op : Operator) {left : Expr} (supported : levels ≤ maxBound)
    (read : recovered levels ⟨position, ahead⟩ = .ok left)
    (changed : DifferWithin start stop ahead rest) (behind : size levels ≤ start) :
    recovered (levels + 1) ⟨place, ⟨.operator op, value⟩ :: rest⟩ =
      (recovered levels (Cursor.skip ⟨place + 1, rest⟩ (size levels))).map (.apply op left) := by
  have kept : recovered levels ⟨place + 1, rest⟩ = .ok left := by
    refine recovered_of_agree read (.of_eq fun index occupied => ?_)
    have before := occupied.lt_size supported (depth_le_of_recovered supported read)
    exact changed.eq_of_lt (Nat.lt_of_lt_of_le before behind)
  rw [recovered_operator, kept]
  cases recovered levels (Cursor.skip ⟨place + 1, rest⟩ (size levels)) <;> rfl

end Operands

/-- Two readings whose slots differ at most in those of one node. Of the former no more is needed
than that it came to an expression with that node. -/
theorem recovered_graft {levels : Nat} {c d : Cursor} {e node : Expr} {path : List Side}
    (supported : levels ≤ maxBound) (read : recovered levels c = .ok e)
    (there : e.subtree? path = some node)
    (changed : DifferWithin (address levels path)
      (address levels path + size (levels - path.length)) c.ahead d.ahead) :
    recovered levels d =
      (recovered (levels - path.length) (d.skip (address levels path))).map (e.graft path) := by
  induction path generalizing levels c d e with
  | nil =>
    have start : d.skip 0 = d := rfl
    rw [address, List.length_nil, Nat.sub_zero, start]
    cases recovered levels d <;> simp [Except.map]
  | cons side path ih =>
    cases e with
    | literal l => cases there
    | apply op l r =>
      obtain ⟨levels, value, ahead, rfl, shape, readl, readr⟩ := exists_operator_of_recovered read
      have below : levels ≤ maxBound := Nat.le_of_succ_le supported
      obtain ⟨place, others⟩ := d
      rw [List.length_cons, Nat.add_sub_add_right, shape] at changed
      rw [List.length_cons, Nat.add_sub_add_right]
      cases side with
      | left =>
        -- The path does not leave the frame, so the changes end before the right operand begins.
        have inside : path.length ≤ levels :=
          Nat.le_trans (l.length_le_depth there) (depth_le_of_recovered below readl)
        obtain ⟨rest, rfl, within⟩ := changed.left
        have grafted := ih (d := ⟨place + 1, rest⟩) below readl there within
        rw [address, Nat.add_sub_cancel, Cursor.skip_cons,
          recovered_of_left_changed op readr within (address_add_size_le below inside), grafted]
        cases recovered (levels - path.length) (Cursor.skip ⟨place + 1, rest⟩ (address levels path))
          <;> rfl
      | right =>
        obtain ⟨rest, rfl, within⟩ := changed.right
        have grafted := ih (d := Cursor.skip ⟨place + 1, rest⟩ (size levels)) below readr there
          within.drop
        rw [address, Nat.add_sub_cancel, ← Nat.add_assoc, Cursor.skip_cons,
          Nat.add_comm (address levels path), ← Cursor.skip_skip,
          recovered_of_right_changed op below readl within (Nat.le_add_left _ _), grafted]
        cases recovered (levels - path.length)
          ((Cursor.skip ⟨place + 1, rest⟩ (size levels)).skip (address levels path)) <;> rfl

/-- The slots of a node may be changed to anything. What is read there afterwards is what a frame of
their own would give. -/
theorem decode_resilient_graft (bound : Nat) (slots others : List Slot) (e node : Expr)
    (path : List Side) (supported : bound ≤ maxBound) (enough : size bound ≤ slots.length)
    (decoded : (decode .resilient bound slots).value = .ok e)
    (there : e.subtree? path = some node) (length : others.length = slots.length)
    (changed : DifferWithin (address bound path)
      (address bound path + size (bound - path.length)) slots others) :
    (∃ new, new.depth ≤ bound - path.length ∧
      (decode .resilient (bound - path.length) (others.drop (address bound path))).value =
        .ok new ∧
      (decode .resilient bound others).value = .ok (e.graft path new)) ∨
    ∃ position, address bound path ≤ position ∧
      position < address bound path + size (bound - path.length) ∧
      (decode .resilient bound others).value = .error (.unexpectedFiller position) := by
  have below : bound - path.length ≤ maxBound := Nat.le_trans (Nat.sub_le _ _) supported
  rw [value_decode_resilient supported] at decoded
  rw [value_decode_resilient supported, value_decode_resilient below]
  have inside : path.length ≤ bound :=
    Nat.le_trans (e.length_le_depth there) (depth_le_of_recovered supported decoded)
  have room := address_add_size_le supported inside
  have start : (Cursor.ofList others).skip (address bound path) =
      ⟨address bound path, others.drop (address bound path)⟩ := by
    have reached : address bound path ≤ (Cursor.ofList others).remaining := by
      change address bound path ≤ others.length
      omega
    rw [Cursor.skip_of_le reached, Cursor.ofList, Nat.zero_add]
  have grafted := recovered_graft (d := Cursor.ofList others) supported decoded there changed
  rw [start] at grafted
  rw [grafted]
  have all : size (bound - path.length) ≤ (others.drop (address bound path)).length := by
    rw [List.length_drop]
    omega
  rcases recovered_of_size_le (c := ⟨address bound path, others.drop (address bound path)⟩) below
    all with ⟨new, read⟩ | ⟨index, within, failed⟩
  · refine .inl ⟨new, depth_le_of_recovered below read, ?_, ?_⟩
    · exact recovered_of_agree read (.of_eq fun _ _ => rfl)
    · rw [read]
      rfl
  · refine .inr ⟨address bound path + index, Nat.le_add_right _ _, Nat.add_lt_add_left within _, ?_⟩
    rw [failed]
    rfl

theorem decode_resilient_graft_right_operand :
    let slots : List Slot := [⟨.operator .mul, 0⟩, ⟨.operator .add, 0⟩, ⟨.operator .div, 0⟩,
      .literal 9, .literal 2, .literal 1, .filler]
    let others : List Slot := [⟨.operator .mul, 0⟩, ⟨.operator .add, 0⟩, ⟨.operator .div, 0⟩,
      .literal 9, ⟨.operator .div, 4⟩, .literal 2, .literal 2]
    let one : Expr := .literal .one
    let two : Expr := .literal .two
    let e : Expr := .apply .mul (.apply .add one one) two
    2 ≤ maxBound ∧ size 2 ≤ slots.length ∧ (decode .resilient 2 slots).value = .ok e ∧
      e.subtree? [.right] = some two ∧ others.length = slots.length ∧
      DifferWithin 4 7 slots others ∧
      ((∃ new, new.depth ≤ 1 ∧ (decode .resilient 1 (others.drop 4)).value = .ok new ∧
        (decode .resilient 2 others).value = .ok (e.graft [.right] new)) ∨
      ∃ position, 4 ≤ position ∧ position < 7 ∧
        (decode .resilient 2 others).value = .error (.unexpectedFiller position)) ∧
      (decode .resilient 2 others).value = .ok (e.graft [.right] (.apply .div two two)) := by
  intro slots others one two e
  have decoded : (decode .resilient 2 slots).value = .ok e := by decide +kernel
  have changed : DifferWithin 4 7 slots others := by
    have each : ∀ index < 7, others[index]? ≠ slots[index]? → 4 ≤ index ∧ index < 7 := by decide
    intro index different
    by_cases inside : index < 7
    · exact each index inside different
    · have behind : slots[index]? = none := List.getElem?_eq_none (Nat.not_lt.1 inside)
      have behind' : others[index]? = none := List.getElem?_eq_none (Nat.not_lt.1 inside)
      exact absurd (behind'.trans behind.symm) different
  exact ⟨by decide, by decide, decoded, rfl, rfl, changed,
    decode_resilient_graft 2 slots others e two [.right] (by decide) (by decide) decoded rfl rfl
      changed, by decide +kernel⟩

end OneTwo.Frame
