import OneTwo.Proofs.Frame.Image
import OneTwo.Proofs.Frame.Reader

/-!
Reading back what was written. Wherever the slots between two cursors have the bare form of an
expression's image, both modes read that expression, go from the one cursor to the other and remark
on nothing. What lies behind the second cursor plays no part, so the operands of an operator are
read one after the other by the same fact.
-/

namespace OneTwo.Frame

theorem readNode_of_passes (mode : Mode) (bound : Nat) {levels : Nat} {e : Expr} {c d : Cursor}
    {front : List Slot} (fits : e.depth ≤ levels) (way : c.Passes front d)
    (same : front.map Slot.bare = image levels e) :
    (readNode mode bound levels).run c = pure (e, d) := by
  induction e generalizing levels c d front with
  | literal l =>
    obtain ⟨s, fillers, rfl, first, others⟩ := List.map_eq_cons_iff.1 same
    obtain ⟨count, each⟩ := Slot.map_bare_eq_replicate_filler_iff.1 others
    obtain rfl := Slot.bare_eq_ofLiteral_iff.1 first
    obtain ⟨position, ahead⟩ := c
    obtain ⟨rest, rfl, onward⟩ := way.uncons
    have readl := readLiteral_value mode position l
    have readp := readPadding_of_passes mode onward each
    rw [count] at readp
    simp only [Slot.ofLiteral, Slot.literal, readNode_literal, readl, readp, StateT.run_pure,
      pure_bind]
  | apply op left right ihl ihr =>
    obtain _ | levels := levels
    · exact absurd fits Expr.not_depth_apply_le_zero
    · rw [Expr.depth_apply_le_succ_iff] at fits
      rw [image_succ] at same
      obtain ⟨⟨kind, value⟩, operands, rfl, first, others⟩ := List.map_eq_cons_iff.1 same
      obtain ⟨former, latter, rfl, samel, samer⟩ := List.map_eq_append_iff.1 others
      obtain rfl : kind = .operator op := Slot.bare_eq_ofKind_operator_iff.1 first
      obtain ⟨position, ahead⟩ := c
      obtain ⟨rest, rfl, onward⟩ := way.uncons
      obtain ⟨middle, wayl, wayr⟩ := onward.split
      have readl := ihl fits.1 wayl samel
      have readr := ihr fits.2 wayr samer
      simp only [readNode_operator_succ, readl, readr, pure_bind]

theorem decode_of_map_bare {bound : Nat} {e : Expr} {slots : List Slot} (mode : Mode)
    (supported : bound ≤ maxBound) (fits : e.depth ≤ bound)
    (same : slots.map Slot.bare = image bound e) : decode mode bound slots = pure (.ok e) := by
  have way : (Cursor.ofList slots).Passes slots ⟨slots.length, []⟩ :=
    ⟨(List.append_nil slots).symm, (Nat.zero_add _).symm⟩
  have read := readNode_of_passes mode bound fits way same
  simp only [decode_of_supported mode supported, read, readEnd_nil, pure_bind]
  rfl

/-- The number of slots depends on the bound alone, and neither mode has anything to mend. -/
theorem decode_encode {bound : Nat} {e : Expr} (supported : bound ≤ maxBound)
    (fits : e.depth ≤ bound) :
    ∃ slots, encode .canonical bound 0 e = .ok slots ∧ slots.length = size bound ∧
      ∀ mode, decode mode bound slots = pure (.ok e) :=
  ⟨image bound e, encode_eq_image supported fits, length_image supported fits,
    fun mode => decode_of_map_bare mode supported fits (map_bare_image bound e)⟩

theorem decode_encode_compound_divisor :
    let e : Expr := .apply .div (.apply .add (.literal .one) (.literal .two)) (.literal .two)
    3 ≤ maxBound ∧ e.depth ≤ 3 ∧ ∃ slots, encode .canonical 3 0 e = .ok slots ∧
      slots.length = 15 ∧ ∀ mode, decode mode 3 slots = pure (.ok e) :=
  ⟨by decide, by decide, decode_encode (by decide) (by decide)⟩

end OneTwo.Frame
