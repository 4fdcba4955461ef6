import OneTwo.Frame.Cursor

/-!
Ways between cursors. From one cursor to another lie exactly certain slots; ways are put together
and taken apart like the sequences of their slots, whatever is ahead of the second cursor. Skips one
after the other are one skip of all their counts.
-/

namespace OneTwo

/-- Exactly the slots `front` lie between the two cursors. -/
structure Cursor.Passes (c : Cursor) (front : List Slot) (d : Cursor) : Prop where
  ahead_eq : c.ahead = front ++ d.ahead
  position_eq : d.position = c.position + front.length

namespace Cursor

theorem skip_zero (c : Cursor) : c.skip 0 = c := rfl

theorem skip_cons (position : Nat) (s : Slot) (ahead : List Slot) (count : Nat) :
    skip ⟨position, s :: ahead⟩ (count + 1) = skip ⟨position + 1, ahead⟩ count := by
  simp only [skip, available, List.take_succ_cons, List.length_cons, List.drop_succ_cons, mk.injEq,
    and_true]
  omega

theorem skip_skip (c : Cursor) (first second : Nat) :
    (c.skip first).skip second = c.skip (first + second) := by
  simp only [skip, available_eq, remaining, List.length_drop, List.drop_drop, mk.injEq, and_true]
  omega

theorem skip_of_le {c : Cursor} {count : Nat} (enough : count ≤ c.remaining) :
    c.skip count = ⟨c.position + count, c.ahead.drop count⟩ := by
  rw [skip, available_eq, Nat.min_eq_left enough]

theorem Passes.cons {position : Nat} {s : Slot} {ahead front : List Slot} {d : Cursor}
    (h : Passes ⟨position + 1, ahead⟩ front d) : Passes ⟨position, s :: ahead⟩ (s :: front) d where
  ahead_eq := congrArg (s :: ·) h.ahead_eq
  position_eq := by
    have behind := h.position_eq
    simp only [List.length_cons] at behind ⊢
    omega

theorem Passes.uncons {position : Nat} {s : Slot} {ahead front : List Slot} {d : Cursor}
    (h : Passes ⟨position, ahead⟩ (s :: front) d) :
    ∃ rest, ahead = s :: rest ∧ Passes ⟨position + 1, rest⟩ front d := by
  refine ⟨front ++ d.ahead, h.ahead_eq, rfl, ?_⟩
  have behind := h.position_eq
  simp only [List.length_cons] at behind ⊢
  omega

theorem Passes.trans {c d e : Cursor} {front back : List Slot} (first : c.Passes front d)
    (second : d.Passes back e) : c.Passes (front ++ back) e where
  ahead_eq := by rw [first.ahead_eq, second.ahead_eq, List.append_assoc]
  position_eq := by rw [second.position_eq, first.position_eq, List.length_append, Nat.add_assoc]

theorem Passes.split {c e : Cursor} {front back : List Slot} (h : c.Passes (front ++ back) e) :
    ∃ d, c.Passes front d ∧ d.Passes back e := by
  refine ⟨⟨c.position + front.length, back ++ e.ahead⟩, ⟨?_, rfl⟩, ⟨rfl, ?_⟩⟩
  · rw [h.ahead_eq, List.append_assoc]
  · rw [h.position_eq, List.length_append, Nat.add_assoc]

theorem passes_skip (c : Cursor) (count : Nat) : c.Passes (c.ahead.take count) (c.skip count) where
  ahead_eq := (List.take_append_drop count c.ahead).symm
  position_eq := rfl

theorem Passes.take_eq {c d : Cursor} {front : List Slot} (h : c.Passes front d) :
    c.ahead.take front.length = front := by
  rw [h.ahead_eq, List.take_left]

theorem Passes.skip_eq {c d : Cursor} {front : List Slot} (h : c.Passes front d) :
    c.skip front.length = d := by
  obtain ⟨position, ahead⟩ := d
  simp only [skip, available, h.take_eq, ← h.position_eq]
  rw [h.ahead_eq, List.drop_left]

end Cursor

end OneTwo
