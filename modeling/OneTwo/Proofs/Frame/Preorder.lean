import OneTwo.Proofs.Frame.Image

/-!
The nodes in a frame. Without its fillers a frame is the expression in preorder, each operator in
front of its operands, whatever the bound is; so a frame has as many fillers as it has slots more
than the expression has nodes. The frame that is just deep enough shows how many nodes there can be
at a given depth.
-/

namespace OneTwo

namespace Expr

/-- A slot for each node: an operator, then its left operand, then its right one. -/
def preorder : Expr → List Slot
  | literal l => [.ofLiteral l]
  | apply op left right => .ofKind (.operator op) :: (left.preorder ++ right.preorder)

theorem length_preorder (e : Expr) : e.preorder.length = e.size := by
  induction e with
  | literal l => rfl
  | apply op left right ihl ihr =>
    rw [preorder, List.length_cons, List.length_append, ihl, ihr, size]

end Expr

namespace Frame

theorem filter_image (levels : Nat) (e : Expr) :
    (image levels e).filter (fun s => !s.isFiller) = e.preorder := by
  induction e generalizing levels with
  | literal l =>
    have none : (List.replicate (padding levels) Slot.filler).filter (fun s => !s.isFiller) = [] :=
      List.filter_replicate_of_neg (by decide)
    rw [image, List.filter_cons_of_pos (by rfl), none, Expr.preorder]
  | apply op left right ihl ihr =>
    rw [image, List.filter_cons_of_pos (by rfl), List.filter_append, ihl, ihr, Expr.preorder]

theorem countP_image (levels : Nat) (e : Expr) :
    (image levels e).countP (fun s => !s.isFiller) = e.size := by
  rw [List.countP_eq_length_filter, filter_image, Expr.length_preorder]

theorem countP_isFiller_image (levels : Nat) (e : Expr) :
    (image levels e).countP Slot.isFiller + e.size = (image levels e).length := by
  rw [← countP_image levels e, List.length_eq_countP_add_countP Slot.isFiller]
  simp only [Bool.not_eq_true, Bool.decide_eq_false]

theorem size_le_of_depth_le {levels : Nat} {e : Expr} (supported : levels ≤ maxBound)
    (fits : e.depth ≤ levels) : e.size ≤ size levels := by
  rw [← length_image supported fits, ← countP_image levels e]
  exact List.countP_le_length

/-- The nodes are the same in the frames of all bounds. That there are not more of them than slots
holds already of the frame that the expression just fits into. -/
theorem encode_holds_preorder (bound : Nat) (e : Expr) (supported : bound ≤ maxBound)
    (fits : e.depth ≤ bound) :
    ∃ slots, encode .canonical bound 0 e = .ok slots ∧
      slots.filter (fun s => !s.isFiller) = e.preorder ∧
      slots.countP (fun s => !s.isFiller) = e.size ∧
      slots.countP Slot.isFiller = size bound - e.size ∧
      e.size ≤ size bound ∧ e.size ≤ size e.depth := by
  have fillers := countP_isFiller_image bound e
  rw [length_image supported fits] at fillers
  exact ⟨image bound e, encode_eq_image supported fits, filter_image bound e, countP_image bound e,
    Nat.eq_sub_of_add_eq fillers, size_le_of_depth_le supported fits,
    size_le_of_depth_le (Nat.le_trans fits supported) (Nat.le_refl e.depth)⟩

theorem encode_holds_preorder_quotient :
    let two : Expr := .literal .two
    let e : Expr := .apply .div (.apply .add (.literal .one) two) two
    let nodes : List Slot :=
      [⟨.operator .div, 0⟩, ⟨.operator .add, 0⟩, .literal 1, .literal 2, .literal 2]
    3 ≤ maxBound ∧ e.depth ≤ 3 ∧ ∃ slots, encode .canonical 3 0 e = .ok slots ∧
      slots.filter (fun s => !s.isFiller) = nodes ∧ slots.countP Slot.isFiller = 10 ∧
      5 ≤ size 2 := by
  intro two e nodes
  obtain ⟨slots, wrote, preorder, -, fillers, -, deepest⟩ :=
    encode_holds_preorder 3 e (by decide) (by decide)
  exact ⟨by decide, by decide, slots, wrote, preorder, fillers, deepest⟩

end Frame

end OneTwo
