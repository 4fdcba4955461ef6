import OneTwo.Proofs.Frame.Deviation

/-!
Where strict reading fails, exactly. Behind every beginning of an image that is not the whole of it,
something is due; and where the next slot may not stand there, or is missing, a strict reading stops
with the error that answers it. Nothing behind that slot takes part.
-/

namespace OneTwo.Frame

namespace Due

variable {levels : Nat} {front : List Slot}

theorem exists_behind {e : Expr} (supported : levels ≤ maxBound) (fits : e.depth ≤ levels)
    (begins : front.map Slot.bare <+: image levels e) (short : front.length < size levels) :
    ∃ due, Behind levels front due := by
  induction e generalizing levels front with
  | literal l =>
    obtain _ | ⟨s, fillers⟩ := front
    · exact ⟨_, .start levels⟩
    · rw [List.map_cons, image, List.cons_prefix_cons, List.prefix_replicate_iff] at begins
      obtain ⟨first, -, others⟩ := begins
      obtain rfl := Slot.bare_eq_ofLiteral_iff.1 first
      obtain ⟨-, each⟩ := Slot.map_bare_eq_replicate_filler_iff.1 others
      rw [List.length_cons, size_eq_padding_add_one supported] at short
      exact ⟨_, .padding l each (Nat.lt_of_succ_lt_succ short)⟩
  | apply op left right ihl ihr =>
    obtain _ | ⟨⟨kind, value⟩, operands⟩ := front
    · exact ⟨_, .start levels⟩
    · obtain _ | levels := levels
      · exact absurd fits Expr.not_depth_apply_le_zero
      · have below : levels ≤ maxBound := Nat.le_of_succ_le supported
        obtain ⟨fitsl, fitsr⟩ := Expr.depth_apply_le_succ_iff.1 fits
        rw [List.map_cons, image_succ, List.cons_prefix_cons] at begins
        obtain ⟨first, begins⟩ := begins
        obtain rfl : kind = .operator op := Slot.bare_eq_ofKind_operator_iff.1 first
        rw [List.length_cons, size_succ supported] at short
        have count : (operands.map Slot.bare).length = operands.length := List.length_map _
        have whole := length_image below fitsl
        by_cases inside : operands.length < size levels
        · have former := List.prefix_of_prefix_length_le begins (List.prefix_append _ _) (by omega)
          obtain ⟨due, behind⟩ := ihl below fitsl former inside
          exact ⟨due, .left op value behind⟩
        · obtain ⟨back, same⟩ := List.prefix_of_prefix_length_le (List.prefix_append _ _) begins
            (by omega)
          obtain ⟨former, latter, rfl, samel, rfl⟩ := List.map_eq_append_iff.1 same.symm
          rw [List.map_append, samel, List.prefix_append_right_inj] at begins
          have taken : former.length = size levels := by rw [← whole, ← samel, List.length_map]
          rw [List.length_append] at short
          obtain ⟨due, behind⟩ := ihr below fitsr begins (by omega)
          exact ⟨due, .right op value fitsl samel behind⟩

end Due

variable {bound : Nat}

theorem readLiteral_strict_of_none {position : Nat} {value : UInt8}
    (unknown : Literal.ofInt? value.toNat = none) :
    readLiteral .strict position value = throw (.invalidLiteral position value) := by
  unfold readLiteral
  rw [unknown]

theorem readPadding_strict_of_other {expected : Nat} {fillers rest : List Slot} (position : Nat)
    (each : ∀ s ∈ fillers, s.isFiller = true) (short : fillers.length < expected)
    (other : ∀ s ∈ rest.head?, s.isFiller = false) :
    (readPadding .strict expected).run ⟨position, fillers ++ rest⟩ =
      throw (.malformedPadding (position + fillers.length)) := by
  have stopped : (rest.take (expected - fillers.length)).takeWhile Slot.isFiller = [] := by
    obtain _ | ⟨s, rest⟩ := rest
    · rw [List.take_nil, List.takeWhile_nil]
    · obtain ⟨count, more⟩ := Nat.exists_eq_add_of_lt short
      rw [more, Nat.add_assoc, Nat.add_sub_cancel_left, List.take_succ_cons, List.takeWhile_cons,
        other s rfl]
      rfl
  have passed : ((fillers ++ rest).take expected).takeWhile Slot.isFiller = fillers := by
    rw [List.take_append, List.take_of_length_le short.le, List.takeWhile_append_of_pos each,
      stopped, List.append_nil]
  rw [readPadding_strict, passed, if_pos short]

theorem readNode_strict_of_refuses {levels : Nat} {front rest : List Slot} {due : Due}
    {position : Nat} {error : FrameError} (behind : Due.Behind levels front due)
    (refused : due.Refuses bound (position + front.length) rest.head? error) :
    (readNode .strict bound levels).run ⟨position, front ++ rest⟩ = throw error := by
  induction behind generalizing position with
  | start levels =>
    rw [List.nil_append]
    generalize next : rest.head? = slot at refused
    obtain _ | ⟨s, rest⟩ := rest
    · cases next
      cases refused
      rw [readNode_nil]
      rfl
    · cases next
      cases refused with
      | unexpectedFiller levels value =>
        rw [readNode_filler]
        rfl
      | @invalidLiteral levels value unknown =>
        rw [readNode_literal, readLiteral_strict_of_none unknown]
        rfl
      | depthExceeded op value =>
        rw [readNode_operator_zero]
        rfl
  | @padding levels fillers l each short =>
    cases refused with
    | malformedPadding other =>
      have stopped := readPadding_strict_of_other (position + 1) each short other
      rw [List.length_cons, Nat.add_comm _ 1, ← Nat.add_assoc]
      simp only [List.cons_append, Slot.ofLiteral, Slot.literal, readNode_literal,
        readLiteral_value, StateT.run_pure, pure_bind, stopped]
      rfl
  | @left levels front due op value inner ih =>
    rw [List.length_cons, Nat.add_comm _ 1, ← Nat.add_assoc] at refused
    rw [List.cons_append, readNode_operator_succ, ih refused]
    rfl
  | @right levels e former front due op value fits whole inner ih =>
    have place : position + 1 + former.length + front.length =
        position + (⟨.operator op, value⟩ :: (former ++ front)).length := by
      rw [List.length_cons, List.length_append]
      omega
    have way : Cursor.Passes ⟨position + 1, former ++ (front ++ rest)⟩ former
      ⟨position + 1 + former.length, front ++ rest⟩ := ⟨rfl, rfl⟩
    rw [← place] at refused
    rw [List.cons_append, List.append_assoc, readNode_operator_succ,
      readNode_of_passes .strict bound fits way whole, pure_bind]
    change (readNode .strict bound levels).run _ >>= _ = _
    rw [ih refused]
    rfl

theorem decode_strict_eq_error_iff {slots : List Slot} {error : FrameError}
    (supported : bound ≤ maxBound) :
    (decode .strict bound slots).value = .error error ↔
      (∃ front rest due, slots = front ++ rest ∧ Due.Behind bound front due ∧
        due.Refuses bound front.length rest.head? error) ∨
      ∃ (e : Expr) (front rest : List Slot) (s : Slot), slots = front ++ s :: rest ∧
        e.depth ≤ bound ∧ front.map Slot.bare = image bound e ∧
        error = .trailingSlots (rest.length + 1) := by
  constructor
  · exact decode_strict_eq_error_cases supported
  · rw [decode_of_supported .strict supported, Cursor.ofList]
    rintro (⟨front, rest, due, rfl, behind, refused⟩ | ⟨e, front, rest, s, rfl, fits, whole, rfl⟩)
    · rw [← Nat.zero_add front.length] at refused
      rw [readNode_strict_of_refuses behind refused]
      rfl
    · have way : Cursor.Passes ⟨0, front ++ s :: rest⟩ front ⟨0 + front.length, s :: rest⟩ :=
        ⟨rfl, rfl⟩
      rw [readNode_of_passes .strict bound fits way whole, pure_bind]
      rfl

end OneTwo.Frame
