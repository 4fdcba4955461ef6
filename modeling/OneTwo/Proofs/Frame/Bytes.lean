import OneTwo.Proofs.Frame.Strict
import OneTwo.Proofs.Slot.Wire

/-!
Frames as bytes. Reading a frame strictly does not fix its bytes: the values of operators and
fillers pass through the wire form and are ignored after it, while encoding writes them as 0. So the
bytes of an accepted frame come back exactly if those values are 0, and two buffers are accepted as
one expression exactly if they differ in such values only.
-/

namespace OneTwo.Frame

theorem decode_strict_iff_agree {bound : Nat} {slots others : List Slot} {e : Expr}
    (h : (decode .strict bound slots).value = .ok e) :
    (decode .strict bound others).value = .ok e ↔ List.Forall₂ Slot.Agrees others slots := by
  obtain ⟨supported, fits, same⟩ := map_bare_of_decode_strict h
  simp only [decode_strict_iff_map_bare, supported, fits, true_and, Slot.forall₂_agrees_iff, same]

/-- The bytes of an accepted frame are those of its expression only up to the values that mean
nothing, and every choice of such values is accepted as the same expression. -/
theorem write_encode_eq_iff (bytes : List UInt8) (bound : Nat) (slots : List Slot) (e : Expr)
    (received : Slot.Wire.read bytes = .ok slots)
    (accepted : (decode .strict bound slots).value = .ok e) :
    (∃ written, encode .canonical bound 0 e = .ok written ∧
      (Slot.Wire.write written = bytes ↔ ∀ s ∈ slots, s.kind ≠ .literal → s.value = 0)) ∧
    ∀ others,
      (∃ slots', Slot.Wire.read others = .ok slots' ∧
        (decode .strict bound slots').value = .ok e) ↔
      ∃ slots', List.Forall₂ Slot.Agrees slots' slots ∧ Slot.Wire.write slots' = others := by
  obtain ⟨supported, fits, same⟩ := map_bare_of_decode_strict accepted
  refine ⟨⟨image bound e, encode_eq_image supported fits, ?_⟩, fun others => ?_⟩
  · rw [← Slot.Wire.read_eq_ok_iff, received, ← same, ← Slot.map_bare_eq_self_iff]
    simp [eq_comm]
  · simp only [Slot.Wire.read_eq_ok_iff, decode_strict_iff_agree accepted]
    exact exists_congr fun slots' => and_comm

theorem write_encode_marked_operator :
    let bytes : List UInt8 := [1, 9, 0, 1, 0, 2]
    let slots : List Slot := [⟨.operator .add, 9⟩, .literal 1, .literal 2]
    let e : Expr := .apply .add (.literal .one) (.literal .two)
    Slot.Wire.read bytes = .ok slots ∧ (decode .strict 1 slots).value = .ok e ∧
      (∃ written, encode .canonical 1 0 e = .ok written ∧
        (Slot.Wire.write written = bytes ↔ ∀ s ∈ slots, s.kind ≠ .literal → s.value = 0)) ∧
      ∀ others,
        (∃ slots', Slot.Wire.read others = .ok slots' ∧
          (decode .strict 1 slots').value = .ok e) ↔
        ∃ slots', List.Forall₂ Slot.Agrees slots' slots ∧ Slot.Wire.write slots' = others := by
  intro bytes slots e
  have received : Slot.Wire.read bytes = .ok slots := by decide +kernel
  have accepted : (decode .strict 1 slots).value = .ok e := by decide +kernel
  exact ⟨received, accepted, write_encode_eq_iff bytes 1 slots e received accepted⟩

/-- The value 9 of the first slot is accepted and lost: two buffers are read as one sum. -/
theorem strict_reading_forgets_operator_value :
    let bytes : List UInt8 := [1, 9, 0, 1, 0, 2]
    let e : Expr := .apply .add (.literal .one) (.literal .two)
    (∃ slots, Slot.Wire.read bytes = .ok slots ∧ (decode .strict 1 slots).value = .ok e) ∧
      ∃ written, encode .canonical 1 0 e = .ok written ∧ Slot.Wire.write written ≠ bytes ∧
        ∃ slots, Slot.Wire.read (Slot.Wire.write written) = .ok slots ∧
          (decode .strict 1 slots).value = .ok e := by
  refine ⟨⟨[⟨.operator .add, 9⟩, .literal 1, .literal 2], ?_, ?_⟩,
    [⟨.operator .add, 0⟩, .literal 1, .literal 2], ?_, ?_, _, Slot.Wire.read_write _, ?_⟩ <;>
    decide +kernel

end OneTwo.Frame
