import OneTwo.Proofs.Frame.Recovery
import OneTwo.Proofs.Frame.Refusal

/-!
More input. Slots behind a sequence change what comes of reading it only if a reading that came to
its end missed something there: a node or, in strict mode, a filler. Padding that was truncated is
passed over as before. A whole frame is still whole with slots behind it, so strict reading then
refuses it, and the number that it reports is that of all slots left over.
-/

namespace OneTwo

namespace Cursor

theorem skip_append_of_le {position count : Nat} {ahead : List Slot} (more : List Slot)
    (enough : count ≤ ahead.length) :
    skip ⟨position, ahead ++ more⟩ count = ⟨position + count, ahead.drop count ++ more⟩ := by
  have reached : count ≤ remaining ⟨position, ahead ++ more⟩ := by
    rw [remaining, List.length_append]
    exact Nat.le_add_right_of_le enough
  rw [skip_of_le reached, List.drop_append_of_le_length enough]

theorem skip_of_lt {position count : Nat} {ahead : List Slot} (short : ahead.length < count) :
    skip ⟨position, ahead⟩ count = ⟨position + ahead.length, []⟩ := by
  rw [skip, available_eq, remaining, Nat.min_eq_right short.le, List.drop_of_length_le short.le]

end Cursor

namespace Frame

theorem recovered_append (levels : Nat) (c : Cursor) (more : List Slot) :
    recovered levels c = .error (.unexpectedEnd (c.position + c.remaining)) ∨
      recovered levels ⟨c.position, c.ahead ++ more⟩ = recovered levels c := by
  induction levels, c using node_induction with
  | nil levels position => exact .inl (recovered_nil levels position)
  | filler levels position value ahead =>
    rw [List.cons_append, recovered_filler, recovered_filler]
    exact .inr rfl
  | literal levels position value ahead =>
    rw [List.cons_append, recovered_literal, recovered_literal]
    exact .inr rfl
  | atBound position op value ahead => exact .inr rfl
  | operator levels position op value ahead ih =>
    have place : position + (ahead.length + 1) = position + 1 + ahead.length := by omega
    rw [Cursor.remaining, List.length_cons, place, List.cons_append, recovered_operator,
      recovered_operator]
    obtain missing | same := ih ⟨position + 1, ahead⟩
    · rw [missing]
      exact .inl rfl
    · rw [same]
      cases recovered levels ⟨position + 1, ahead⟩ with
      | error error => exact .inr rfl
      | ok left =>
        by_cases enough : size levels ≤ ahead.length
        · have latter := ih ⟨position + 1 + size levels, ahead.drop (size levels)⟩
          have last : position + 1 + size levels + (ahead.drop (size levels)).length =
              position + 1 + ahead.length := by
            rw [List.length_drop]
            omega
          rw [Cursor.remaining, last] at latter
          rw [Cursor.skip_append_of_le more enough, Cursor.skip_of_le enough]
          obtain missing | same := latter
          · rw [missing]
            exact .inl rfl
          · rw [same]
            exact .inr rfl
        -- The left operand is a literal whose padding is not all there.
        · rw [Cursor.skip_of_lt (Nat.not_le.1 enough), recovered_nil]
          exact .inl rfl

variable {bound : Nat} {slots : List Slot}

theorem decode_resilient_append (bound : Nat) (slots more : List Slot) :
    (decode .resilient bound slots).value = .error (.unexpectedEnd slots.length) ∨
      (decode .resilient bound (slots ++ more)).value = (decode .resilient bound slots).value := by
  by_cases supported : bound ≤ maxBound
  · have read := recovered_append bound (Cursor.ofList slots) more
    rw [Cursor.ofList, Cursor.remaining, Nat.zero_add] at read
    rw [value_decode_resilient supported, value_decode_resilient supported]
    exact read
  · have unsupported := Nat.not_le.1 supported
    rw [decode_of_unsupported .resilient unsupported, decode_of_unsupported .resilient unsupported]
    exact .inr rfl

theorem Due.Refuses.append {position : Nat} {due : Due} {rest : List Slot} {error : FrameError}
    (h : due.Refuses bound position rest.head? error) (more : List Slot) :
    due.Refuses bound position (rest ++ more).head? error ∨
      rest = [] ∧ (error = .unexpectedEnd position ∨ error = .malformedPadding position) := by
  obtain _ | ⟨s, rest⟩ := rest
  · refine .inr ⟨rfl, ?_⟩
    generalize next : ([] : List Slot).head? = slot at h
    cases h with
    | unexpectedEnd levels => exact .inl rfl
    | malformedPadding other => exact .inr rfl
    | unexpectedFiller levels value => cases next
    | invalidLiteral levels unknown => cases next
    | depthExceeded op value => cases next
  · exact .inl h

theorem decode_strict_append_of_ok {e : Expr} {more : List Slot} (nonempty : more ≠ [])
    (h : (decode .strict bound slots).value = .ok e) :
    (decode .strict bound (slots ++ more)).value = .error (.trailingSlots more.length) := by
  obtain ⟨supported, fits, whole⟩ := map_bare_of_decode_strict h
  obtain ⟨s, rest, rfl⟩ := List.exists_cons_of_ne_nil nonempty
  exact (decode_strict_eq_error_iff supported).2 (.inr ⟨e, slots, rest, s, rfl, fits, whole, rfl⟩)

theorem decode_strict_append_of_trailingSlots {count : Nat} (more : List Slot)
    (h : (decode .strict bound slots).value = .error (.trailingSlots count)) :
    (decode .strict bound (slots ++ more)).value =
      .error (.trailingSlots (count + more.length)) := by
  by_cases supported : bound ≤ maxBound
  · rw [decode_strict_eq_error_iff supported] at h ⊢
    obtain ⟨front, rest, due, -, -, refused⟩ | ⟨e, front, rest, s, rfl, fits, whole, same⟩ := h
    · generalize rest.head? = slot at refused
      cases refused
    · refine .inr ⟨e, front, rest ++ more, s, ?_, fits, whole, ?_⟩
      · rw [List.append_assoc, List.cons_append]
      · cases same
        rw [List.length_append, Nat.add_right_comm]
  · rw [decode_of_unsupported .strict (Nat.not_le.1 supported)] at h
    cases h

theorem eq_length_of_unexpectedEnd {position : Nat}
    (h : (decode .strict bound slots).value = .error (.unexpectedEnd position)) :
    position = slots.length := by
  by_cases supported : bound ≤ maxBound
  · obtain ⟨front, rest, due, rfl, -, refused⟩ | ⟨e, front, rest, s, -, -, -, same⟩ :=
      (decode_strict_eq_error_iff supported).1 h
    · obtain _ | ⟨s, rest⟩ := rest
      · cases refused
        rw [List.append_nil]
      · cases refused
    · cases same
  · rw [decode_of_unsupported .strict (Nat.not_le.1 supported)] at h
    cases h

theorem decode_strict_append_of_error {error : FrameError} (more : List Slot)
    (h : (decode .strict bound slots).value = .error error)
    (whole : ∀ count, error ≠ .trailingSlots count) (node : error ≠ .unexpectedEnd slots.length)
    (padding : error ≠ .malformedPadding slots.length) :
    (decode .strict bound (slots ++ more)).value = .error error := by
  by_cases supported : bound ≤ maxBound
  · rw [decode_strict_eq_error_iff supported] at h ⊢
    obtain ⟨front, rest, due, rfl, behind, refused⟩ | ⟨e, front, rest, s, -, -, -, same⟩ := h
    · obtain still | ⟨rfl, missing⟩ := refused.append more
      · exact .inl ⟨front, rest ++ more, due, List.append_assoc _ _ _, behind, still⟩
      · rw [List.append_nil] at node padding
        obtain same | same := missing
        · exact absurd same node
        · exact absurd same padding
    · exact absurd same (whole _)
  · have unsupported := Nat.not_le.1 supported
    rw [decode_of_unsupported .strict unsupported] at h ⊢
    exact h

/-- The bound may be any. In the last part the errors are those at a slot that is there, and that
of an unsupported bound. -/
theorem decode_append (bound : Nat) (slots more : List Slot) :
    ((decode .resilient bound slots).value = .error (.unexpectedEnd slots.length) ∨
      (decode .resilient bound (slots ++ more)).value = (decode .resilient bound slots).value) ∧
    (∀ position, (decode .strict bound slots).value = .error (.unexpectedEnd position) →
      position = slots.length) ∧
    (more ≠ [] →
      (∀ e, (decode .strict bound slots).value = .ok e →
        (decode .strict bound (slots ++ more)).value = .error (.trailingSlots more.length)) ∧
      (∀ count, (decode .strict bound slots).value = .error (.trailingSlots count) →
        (decode .strict bound (slots ++ more)).value =
          .error (.trailingSlots (count + more.length))) ∧
      ∀ error, (decode .strict bound slots).value = .error error →
        (∀ count, error ≠ .trailingSlots count) → error ≠ .unexpectedEnd slots.length →
        error ≠ .malformedPadding slots.length →
        (decode .strict bound (slots ++ more)).value = .error error) := by
  refine ⟨decode_resilient_append bound slots more, fun position => eq_length_of_unexpectedEnd,
    fun nonempty => ⟨fun e => decode_strict_append_of_ok nonempty, fun count => ?_, ?_⟩⟩
  · exact decode_strict_append_of_trailingSlots more
  · intro error
    exact decode_strict_append_of_error more

theorem decode_append_sum :
    let frame : List Slot := [⟨.operator .add, 3⟩, .literal 1, .filler, ⟨.filler, 7⟩, .literal 2,
      .filler, .filler]
    let more : List Slot := [⟨.operator .div, 0⟩, .literal 5]
    let wrong : List Slot := frame.take 5 ++ more
    let e : Expr := .apply .add (.literal .one) (.literal .two)
    more ≠ [] ∧
      (decode .strict 2 frame).value = .ok e ∧
      (decode .strict 2 (frame ++ more)).value = .error (.trailingSlots 2) ∧
      (decode .strict 2 (frame ++ more ++ more)).value = .error (.trailingSlots 4) ∧
      (decode .strict 2 (frame.take 4)).value = .error (.unexpectedEnd 4) ∧
      4 = (frame.take 4).length ∧
      (decode .strict 2 wrong).value = .error (.malformedPadding 5) ∧
      (decode .strict 2 (wrong ++ more)).value = .error (.malformedPadding 5) ∧
      (decode .resilient 2 (frame.take 6)).value = .ok e ∧
      (decode .resilient 2 (frame.take 6 ++ more)).value = .ok e := by
  intro frame more wrong e
  have nonempty : more ≠ [] := by decide
  have whole : (decode .strict 2 frame).value = .ok e := by decide +kernel
  have ended : (decode .strict 2 (frame.take 4)).value = .error (.unexpectedEnd 4) := by
    decide +kernel
  have stopped : (decode .strict 2 wrong).value = .error (.malformedPadding 5) := by decide +kernel
  have truncated : (decode .resilient 2 (frame.take 6)).value = .ok e := by decide +kernel
  obtain ⟨-, -, behind⟩ := decode_append 2 frame more
  obtain ⟨-, -, further⟩ := decode_append 2 (frame ++ more) more
  obtain ⟨-, -, beyond⟩ := decode_append 2 wrong more
  obtain ⟨-, place, -⟩ := decode_append 2 (frame.take 4) more
  obtain ⟨settled, -⟩ := decode_append 2 (frame.take 6) more
  have left := (behind nonempty).1 e whole
  refine ⟨nonempty, whole, left, (further nonempty).2.1 2 left, ended, place 4 ended, stopped, ?_,
    truncated, ?_⟩
  · exact (beyond nonempty).2.2 _ stopped (fun count same => by cases same) (by decide) (by decide)
  · rw [truncated] at settled
    exact settled.resolve_left (by decide)

end Frame

end OneTwo
