import OneTwo.Frame.Encode
import OneTwo.Proofs.Slot.Agreement

/-!
The image of an expression: the slots that the canonical layout gives it, as a total function of the
expression and of the levels that are left above the bound. Encoding succeeds exactly for the
expressions that these levels have room for, and then gives the image; so a part of a frame depends
on how far above the bound it stands, and not on the bound itself. Of the operators that stand too
deep the first is reported, with the bound or, if that is passed from the start, with its depth.
-/

namespace OneTwo.Frame

/-- At no level above the bound an operator has no room, and its image there means nothing. -/
def image (levels : Nat) : Expr → List Slot
  | .literal l => .ofLiteral l :: List.replicate (padding levels) .filler
  | .apply op left right =>
    .ofKind (.operator op) :: (image (levels - 1) left ++ image (levels - 1) right)

theorem image_succ (levels : Nat) (op : Operator) (left right : Expr) :
    image (levels + 1) (.apply op left right) =
      .ofKind (.operator op) :: (image levels left ++ image levels right) := rfl

theorem slots_canonical (bound depth : Nat) (e : Expr) :
    slots .canonical bound depth e =
      if e.depth ≤ bound - depth then .ok (image (bound - depth) e)
      else .error (.depthExceeded (max depth bound) bound) := by
  induction e generalizing depth with
  | literal l => simp [slots, image, Expr.depth]
  | apply op left right ihl ihr =>
    by_cases room : depth < bound
    · have one : bound - depth = bound - (depth + 1) + 1 := by omega
      have deepest : max (depth + 1) bound = max depth bound := by omega
      rw [slots, if_neg (Nat.not_le.2 room), ihl, ihr, one, image_succ, Expr.depth, deepest]
      simp only [Layout.repeatsRight, Bool.false_eq_true, if_false, Nat.add_le_add_iff_right,
        Nat.max_le]
      by_cases fitsl : left.depth ≤ bound - (depth + 1)
      · by_cases fitsr : right.depth ≤ bound - (depth + 1)
        · simp [fitsl, fitsr, bind, Except.bind, pure, Except.pure]
        · simp [fitsl, fitsr, bind, Except.bind]
      · simp [fitsl, bind, Except.bind]
    · have full : bound - depth = 0 := by omega
      have deepest : max depth bound = depth := by omega
      rw [slots, if_pos (Nat.not_lt.1 room), full, deepest]
      simp [Expr.depth]

theorem encode_canonical {bound : Nat} (supported : bound ≤ maxBound) (depth : Nat) (e : Expr) :
    encode .canonical bound depth e =
      if e.depth ≤ bound - depth then .ok (image (bound - depth) e)
      else .error (.depthExceeded (max depth bound) bound) := by
  rw [encode, checkBound_of_le supported, ← slots_canonical]
  rfl

theorem encode_eq_image {bound : Nat} {e : Expr} (supported : bound ≤ maxBound)
    (fits : e.depth ≤ bound) : encode .canonical bound 0 e = .ok (image bound e) := by
  rw [encode_canonical supported, Nat.sub_zero, if_pos fits]

theorem encode_canonical_eq_ok_iff {bound : Nat} {e : Expr} {slots : List Slot}
    (supported : bound ≤ maxBound) :
    encode .canonical bound 0 e = .ok slots ↔ e.depth ≤ bound ∧ slots = image bound e := by
  rw [encode_canonical supported, Nat.sub_zero]
  by_cases fits : e.depth ≤ bound
  · simp [fits, eq_comm]
  · simp [fits]

theorem length_image {levels : Nat} {e : Expr} (supported : levels ≤ maxBound)
    (fits : e.depth ≤ levels) : (image levels e).length = size levels := by
  induction e generalizing levels with
  | literal l =>
    rw [image, List.length_cons, List.length_replicate, size_eq_padding_add_one supported]
  | apply op left right ihl ihr =>
    obtain _ | levels := levels
    · exact absurd fits Expr.not_depth_apply_le_zero
    · rw [Expr.depth_apply_le_succ_iff] at fits
      have below : levels ≤ maxBound := by omega
      rw [image_succ, List.length_cons, List.length_append, ihl below fits.1, ihr below fits.2,
        size_succ (by omega)]
      omega

@[simp] theorem map_bare_image (levels : Nat) (e : Expr) :
    (image levels e).map Slot.bare = image levels e := by
  induction e generalizing levels with
  | literal l =>
    rw [image, List.map_cons, Slot.bare_ofLiteral, List.map_replicate, Slot.filler,
      Slot.bare_ofKind]
  | apply op left right ihl ihr =>
    rw [image, List.map_cons, List.map_append, ihl, ihr, Slot.bare_ofKind]

end OneTwo.Frame
