import OneTwo.Proofs.Frame.RoundTrip

/-!
The legacy layout. It writes the canonical frame of another expression, in which every product is
the square of its right operand, and fails where that one has no room: what stands in a left factor
plays no part, not even if it is too deep. The rewritten expression is one that rewriting leaves
alone, so from there on both layouts write the same slots.
-/

namespace OneTwo

namespace Expr

/-- Every product becomes the square of its right operand, at all depths. -/
def squared : Expr → Expr
  | literal l => literal l
  | apply .mul _ right => apply .mul right.squared right.squared
  | apply .add left right => apply .add left.squared right.squared
  | apply .div left right => apply .div left.squared right.squared

theorem squared_squared (e : Expr) : e.squared.squared = e.squared := by
  induction e with
  | literal l => rfl
  | apply op left right ihl ihr => cases op <;> simp only [squared, ihl, ihr]

theorem depth_squared_le (e : Expr) : e.squared.depth ≤ e.depth := by
  induction e with
  | literal l => exact Nat.le_refl 0
  | apply op left right ihl ihr => cases op <;> simp only [squared, depth] <;> omega

end Expr

namespace Frame

theorem slots_legacy (bound depth : Nat) (e : Expr) :
    slots .legacy bound depth e = slots .canonical bound depth e.squared := by
  induction e generalizing depth with
  | literal l => rfl
  | apply op left right ihl ihr =>
    cases op with
    | add | div => simp [slots, Expr.squared, Layout.repeatsRight, ihl, ihr]
    -- The left factor is not even looked at, so nothing is needed of it.
    | mul => simp [slots, Expr.squared, Layout.repeatsRight, ihr]

theorem encode_legacy (bound depth : Nat) (e : Expr) :
    encode .legacy bound depth e = encode .canonical bound depth e.squared := by
  rw [encode, encode, slots_legacy]

def Layout.stored : Layout → Expr → Expr
  | canonical, e => e
  | legacy, e => e.squared

theorem encode_eq_image_stored (layout : Layout) {bound : Nat} {e : Expr}
    (supported : bound ≤ maxBound) (fits : e.depth ≤ bound) :
    (layout.stored e).depth ≤ bound ∧
      encode layout bound 0 e = .ok (image bound (layout.stored e)) := by
  cases layout with
  | canonical => exact ⟨fits, encode_eq_image supported fits⟩
  | legacy =>
    have room : e.squared.depth ≤ bound := Nat.le_trans e.depth_squared_le fits
    exact ⟨room, (encode_legacy bound 0 e).trans (encode_eq_image supported room)⟩

theorem supported_of_encode {layout : Layout} {bound depth : Nat} {e : Expr} {slots : List Slot}
    (h : encode layout bound depth e = .ok slots) : bound ≤ maxBound := by
  by_contra unsupported
  rw [encode, checkBound_of_lt (Nat.not_le.1 unsupported)] at h
  cases h

/-- The errors are the same too. What is read back is the rewritten expression, in either mode and
with nothing to mend. -/
theorem encode_legacy_eq_squared (bound depth : Nat) (e : Expr) :
    encode .legacy bound depth e = encode .canonical bound depth e.squared ∧
    ∀ slots, encode .legacy bound 0 e = .ok slots →
      (∀ mode, decode mode bound slots = pure (.ok e.squared)) ∧
      ∀ layout, encode layout bound 0 e.squared = .ok slots := by
  refine ⟨encode_legacy bound depth e, fun slots wrote => ?_⟩
  have supported := supported_of_encode wrote
  rw [encode_legacy] at wrote
  obtain ⟨fits, rfl⟩ := (encode_canonical_eq_ok_iff supported).1 wrote
  constructor
  · intro mode
    exact decode_of_map_bare mode supported fits (map_bare_image bound e.squared)
  · intro layout
    cases layout with
    | canonical => exact wrote
    | legacy => rw [encode_legacy, Expr.squared_squared, wrote]

theorem encode_legacy_nested_products :
    let one : Expr := .literal .one
    let two : Expr := .literal .two
    let deep : Expr := .apply .add (.apply .div two one) one
    let e : Expr := .apply .mul deep (.apply .mul one two)
    let square : Expr := .apply .mul two two
    let slots : List Slot := [⟨.operator .mul, 0⟩,
      ⟨.operator .mul, 0⟩, .literal 2, .literal 2, ⟨.operator .mul, 0⟩, .literal 2, .literal 2]
    e.squared = .apply .mul square square ∧
      encode .legacy 2 0 e = .ok slots ∧ encode .canonical 2 0 e = .error (.depthExceeded 2 2) ∧
      encode .legacy 2 0 e = encode .canonical 2 0 e.squared ∧
      (∀ mode, decode mode 2 slots = pure (.ok e.squared)) ∧
      ∀ layout, encode layout 2 0 e.squared = .ok slots := by
  intro one two deep e square slots
  have wrote : encode .legacy 2 0 e = .ok slots := by decide
  obtain ⟨same, reads⟩ := encode_legacy_eq_squared 2 0 e
  exact ⟨by decide, wrote, by decide, same, reads slots wrote⟩

end Frame

end OneTwo
