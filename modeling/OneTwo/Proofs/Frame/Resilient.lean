import OneTwo.Proofs.Frame.Reader

/-!
Resilient reading keeps to the slots of the frame. Whatever the slots hold, a node that is read takes
exactly the slots of a frame of its height, or all that are left: a literal skips its padding unseen,
an operator at the bound is a literal without padding, and any other operator takes its own slot and
those of two nodes a level below. So a reading can only fail at a filler inside those slots, or at
the end if there are too few of them.
-/

namespace OneTwo

namespace Frame

theorem outcome_readLiteral_resilient (position : Nat) (value : UInt8) (c : Cursor) :
    outcome ((readLiteral .resilient position value).run c) =
      .ok ((Literal.ofInt? value.toNat).getD .one, c) := by
  have recovered : (Literal.recover value.toNat).value =
      (Literal.ofInt? value.toNat).getD .one := by
    unfold Literal.recover
    cases Literal.ofInt? value.toNat <;> rfl
  unfold readLiteral
  cases known : Literal.ofInt? value.toNat with
  | some l => rfl
  | none =>
    rw [known] at recovered
    change Except.ok ((Literal.recover value.toNat).value, c) = _
    rw [recovered]

theorem outcome_readPadding_resilient (expected : Nat) (c : Cursor) :
    outcome ((readPadding .resilient expected).run c) = .ok ((), c.skip expected) := by
  rw [readPadding_resilient]
  split <;> rfl

theorem outcome_readNode_literal_resilient (bound levels position : Nat) (value : UInt8)
    (ahead : List Slot) :
    outcome ((readNode .resilient bound levels).run ⟨position, ⟨.literal, value⟩ :: ahead⟩) =
      .ok (.literal ((Literal.ofInt? value.toNat).getD .one),
        Cursor.skip ⟨position + 1, ahead⟩ (padding levels)) := by
  rw [readNode_literal, outcome_bind, outcome_readLiteral_resilient]
  change outcome ((readPadding .resilient (padding levels)).run _ >>= _) = _
  rw [outcome_bind, outcome_readPadding_resilient]
  rfl

theorem outcome_readNode_atBound_resilient (bound position : Nat) (op : Operator) (value : UInt8)
    (ahead : List Slot) :
    outcome ((readNode .resilient bound 0).run ⟨position, ⟨.operator op, value⟩ :: ahead⟩) =
      .ok (.literal .one, Cursor.skip ⟨position + 1, ahead⟩ 0) := by
  rw [readNode_operator_zero]
  rfl

theorem outcome_readEnd_resilient (c : Cursor) :
    outcome ((readEnd .resilient).run c) = .ok ((), c) := by
  obtain ⟨position, _ | ⟨s, ahead⟩⟩ := c <;> rfl

/-- How a reading from a cursor ends that is due to take `count` slots. -/
inductive Ending (c : Cursor) (count : Nat) : Except FrameError (Expr × Cursor) → Prop where
  | read (e : Expr) : Ending c count (.ok (e, c.skip count))
  | filler {index : Nat} {value : UInt8} (inside : index < count)
      (there : c.ahead[index]? = some ⟨.filler, value⟩) :
      Ending c count (.error (.unexpectedFiller (c.position + index)))
  | missing (short : c.remaining < count) :
      Ending c count (.error (.unexpectedEnd (c.position + c.remaining)))

namespace Ending

theorem cons {position count : Nat} {ahead : List Slot} {x : Except FrameError (Expr × Cursor)}
    (h : Ending ⟨position + 1, ahead⟩ count x) (s : Slot) :
    Ending ⟨position, s :: ahead⟩ (count + 1) x := by
  cases h with
  | read e =>
    rw [← Cursor.skip_cons]
    exact .read e
  | @filler index value inside there =>
    have place : position + 1 + index = position + (index + 1) := by omega
    rw [place]
    exact .filler (Nat.succ_lt_succ inside) there
  | missing short =>
    have place : position + 1 + ahead.length = position + (ahead.length + 1) := by omega
    change Ending _ _ (.error (.unexpectedEnd (position + 1 + ahead.length)))
    rw [place]
    exact .missing (Nat.succ_lt_succ short)

theorem bind {c : Cursor} {first second : Nat} {x : ExceptT FrameError Logged (Expr × Cursor)}
    {f : Expr × Cursor → ExceptT FrameError Logged (Expr × Cursor)}
    (former : Ending c first (outcome x))
    (latter : ∀ e, Ending (c.skip first) second (outcome (f (e, c.skip first)))) :
    Ending c (first + second) (outcome (x >>= f)) := by
  rw [outcome_bind]
  generalize outcome x = r at former
  cases former with
  | read e =>
    have further := latter e
    change Ending c (first + second) (outcome (f (e, c.skip first)))
    generalize outcome (f (e, c.skip first)) = r at further
    cases further with
    | read e =>
      rw [Cursor.skip_skip]
      exact .read e
    | @filler index value inside there =>
      have within : c.ahead[first + index]? = some ⟨.filler, value⟩ := by
        rw [← there, Cursor.skip, List.getElem?_drop]
      obtain ⟨present, -⟩ := List.getElem?_eq_some_iff.1 within
      have whole : first ≤ c.remaining := by
        unfold Cursor.remaining
        omega
      rw [Cursor.skip_of_le whole, Nat.add_assoc]
      exact .filler (Nat.add_lt_add_left inside first) within
    | missing short =>
      rw [Cursor.skip_position_add_remaining]
      refine .missing ?_
      simp only [Cursor.skip, Cursor.remaining, List.length_drop] at short ⊢
      omega
  | filler inside there => exact .filler (Nat.lt_add_right second inside) there
  | missing short => exact .missing (Nat.lt_add_right second short)

theorem map {c : Cursor} {count : Nat} {x : ExceptT FrameError Logged (Expr × Cursor)}
    (h : Ending c count (outcome x)) (g : Expr → Expr) :
    Ending c count (outcome (x >>= fun (e, d) => pure (g e, d))) := by
  rw [outcome_bind]
  generalize outcome x = r at h
  cases h with
  | read e => exact .read (g e)
  | filler inside there => exact .filler inside there
  | missing short => exact .missing short

theorem of_le {c : Cursor} {count : Nat} {x : Except FrameError (Expr × Cursor)}
    (h : Ending c count x) (enough : count ≤ c.remaining) :
    (∃ e, x = .ok (e, ⟨c.position + count, c.ahead.drop count⟩)) ∨
      ∃ index < count, (∃ value, c.ahead[index]? = some ⟨.filler, value⟩) ∧
        x = .error (.unexpectedFiller (c.position + index)) := by
  cases h with
  | read e => exact .inl ⟨e, by rw [Cursor.skip_of_le enough]⟩
  | @filler index value inside there => exact .inr ⟨index, inside, ⟨value, there⟩, rfl⟩
  | missing short => exact absurd enough (Nat.not_le.2 short)

end Ending

variable {bound : Nat}

theorem ending_readNode (bound : Nat) {levels : Nat} (supported : levels ≤ maxBound) (c : Cursor) :
    Ending c (size levels) (outcome ((readNode .resilient bound levels).run c)) := by
  induction levels, c using node_induction with
  | nil levels position =>
    rw [readNode_nil]
    exact .missing (size_pos levels)
  | filler levels position value ahead =>
    rw [readNode_filler]
    exact .filler (size_pos levels) rfl
  | literal levels position value ahead =>
    rw [outcome_readNode_literal_resilient, size_eq_padding_add_one supported]
    exact (Ending.read _).cons _
  | atBound position op value ahead =>
    rw [outcome_readNode_atBound_resilient]
    exact (Ending.read _).cons _
  | operator levels position op value ahead ih =>
    have below : levels ≤ maxBound := Nat.le_of_succ_le supported
    have slots : size (levels + 1) = size levels + size levels + 1 := by
      rw [size_succ supported]
      omega
    rw [readNode_operator_succ, slots]
    refine Ending.cons (Ending.bind (ih _ below) ?_) _
    intro left
    exact (ih _ below).map (.apply op left)

theorem run_readFrame (mode : Mode) (supported : bound ≤ maxBound) (c : Cursor) :
    (readFrame mode bound).run c = do
      let (e, c) ← (readNode mode bound bound).run c
      let (_, c) ← (readEnd mode).run c
      return (e, c) := by
  simp [readFrame, liftM_checkBound supported]

theorem value_decode (mode : Mode) (bound : Nat) (slots : List Slot) :
    (decode mode bound slots).value =
      (outcome ((readFrame mode bound).run (Cursor.ofList slots))).map Prod.fst := by
  rw [decode, StateT.run'_eq, ExceptT.run_map, Logged.map_value, outcome]

theorem outcome_readFrame_resilient (supported : bound ≤ maxBound) (c : Cursor) :
    outcome ((readFrame .resilient bound).run c) =
      outcome ((readNode .resilient bound bound).run c) := by
  have kept : ∀ a : Expr × Cursor,
      outcome (do let (_, d) ← (readEnd .resilient).run a.2; return (a.1, d)) = .ok a := by
    intro a
    rw [outcome_bind, outcome_readEnd_resilient]
    rfl
  rw [run_readFrame .resilient supported, outcome_bind]
  cases outcome ((readNode .resilient bound bound).run c) with
  | error error => rfl
  | ok a => exact kept a

theorem ending_readFrame (supported : bound ≤ maxBound) (c : Cursor) :
    Ending c (size bound) (outcome ((readFrame .resilient bound).run c)) := by
  rw [outcome_readFrame_resilient supported]
  exact ending_readNode bound supported c

theorem readFrame_of_size_le (supported : bound ≤ maxBound) {slots : List Slot}
    (enough : size bound ≤ slots.length) :
    (∃ e, outcome ((readFrame .resilient bound).run (Cursor.ofList slots)) =
      .ok (e, ⟨size bound, slots.drop (size bound)⟩)) ∨
    ∃ position < size bound, (∃ value, slots[position]? = some ⟨.filler, value⟩) ∧
      outcome ((readFrame .resilient bound).run (Cursor.ofList slots)) =
        .error (.unexpectedFiller position) := by
  have frame := (ending_readFrame supported (Cursor.ofList slots)).of_le enough
  simpa only [Cursor.ofList, Nat.zero_add] using frame

/-- A whole frame of slots that may hold anything. A reading takes each of them, and only a filler
where a node is due stops it. -/
theorem decode_resilient_of_size_le (bound : Nat) (slots : List Slot) (supported : bound ≤ maxBound)
    (enough : size bound ≤ slots.length) :
    ((∃ e, (decode .resilient bound slots).value = .ok e) ∨
      ∃ position < size bound,
        (decode .resilient bound slots).value = .error (.unexpectedFiller position)) ∧
    (∀ depth ≤ bound, ∀ (c d : Cursor) (e : Expr), size (bound - depth) ≤ c.remaining →
      outcome ((readNode .resilient bound (bound - depth)).run c) = .ok (e, d) →
      d = ⟨c.position + size (bound - depth), c.ahead.drop (size (bound - depth))⟩) ∧
    (∀ e, (decode .resilient bound slots).value = .ok e →
      outcome ((readFrame .resilient bound).run (Cursor.ofList slots)) =
        .ok (e, ⟨size bound, slots.drop (size bound)⟩)) ∧
    ((∀ s ∈ slots.take (size bound), s.isFiller = false) →
      ∃ e, (decode .resilient bound slots).value = .ok e) := by
  have frame := readFrame_of_size_le supported enough
  rw [value_decode]
  refine ⟨?_, ?_, ?_, ?_⟩
  · rcases frame with ⟨e, read⟩ | ⟨position, inside, -, failed⟩
    · exact .inl ⟨e, by rw [read]; rfl⟩
    · exact .inr ⟨position, inside, by rw [failed]; rfl⟩
  · intro depth _ c d e room reads
    have below : bound - depth ≤ maxBound := Nat.le_trans (Nat.sub_le bound depth) supported
    have node := (ending_readNode bound below c).of_le room
    rw [reads] at node
    rcases node with ⟨f, same⟩ | ⟨index, -, -, failed⟩
    · exact congrArg Prod.snd (Except.ok.inj same)
    · cases failed
  · intro e decoded
    rcases frame with ⟨f, read⟩ | ⟨position, -, -, failed⟩
    · rw [read] at decoded ⊢
      cases decoded
      rfl
    · rw [failed] at decoded
      cases decoded
  · intro nodes
    rcases frame with ⟨e, read⟩ | ⟨position, inside, ⟨value, there⟩, -⟩
    · exact ⟨e, by rw [read]; rfl⟩
    · have slot : (slots.take (size bound))[position]? = some ⟨.filler, value⟩ := by
        rw [List.getElem?_take_of_lt inside, there]
      have impossible := nodes _ (List.mem_of_getElem? slot)
      cases impossible

theorem decode_resilient_mended_slots :
    let slots : List Slot := [⟨.operator .add, 3⟩, ⟨.operator .mul, 0⟩, .literal 9,
      ⟨.operator .div, 0⟩, .literal 0, .literal 2, ⟨.operator .add, 0⟩, .filler]
    let one : Expr := .literal .one
    2 ≤ maxBound ∧ size 2 ≤ slots.length ∧ (∀ s ∈ slots.take (size 2), s.isFiller = false) ∧
      (∃ e, (decode .resilient 2 slots).value = .ok e) ∧
      outcome ((readFrame .resilient 2).run (Cursor.ofList slots)) =
        .ok (.apply .add (.apply .mul one one) one, ⟨7, [.filler]⟩) ∧
      ∀ d e, outcome ((readNode .resilient 2 1).run ⟨1, slots.drop 1⟩) = .ok (e, d) →
        d = ⟨4, slots.drop 4⟩ := by
  intro slots one
  have supported : 2 ≤ maxBound := by decide
  have enough : size 2 ≤ slots.length := by decide
  have nodes : ∀ s ∈ slots.take (size 2), s.isFiller = false := by decide
  have decoded : (decode .resilient 2 slots).value =
      .ok (.apply .add (.apply .mul one one) one) := by decide +kernel
  obtain ⟨-, each, taken, reads⟩ := decode_resilient_of_size_le 2 slots supported enough
  refine ⟨supported, enough, nodes, reads nodes, taken _ decoded, ?_⟩
  intro d e read
  exact each 1 (by decide) ⟨1, slots.drop 1⟩ d e (by decide) read

end Frame

end OneTwo
