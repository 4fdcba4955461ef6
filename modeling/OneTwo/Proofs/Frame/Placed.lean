import OneTwo.Proofs.Frame.Image
import OneTwo.Proofs.Frame.Subtree

/-!
Where the parts of a written expression stand. The slots of a subtree begin at the address of its
path, whatever the expression is around it, and they are the frame that the subtree has for itself,
as many levels lower. What is written before and behind them does not depend on the subtree, so
another one in its place changes no slot outside.
-/

namespace OneTwo.Frame

theorem exists_around {levels : Nat} {e node : Expr} {path : List Side}
    (supported : levels ≤ maxBound) (fits : e.depth ≤ levels)
    (there : e.subtree? path = some node) :
    ∃ before behind, before.length = address levels path ∧
      ∀ new, image levels (e.graft path new) =
        before ++ (image (levels - path.length) new ++ behind) := by
  induction path generalizing levels e with
  | nil => exact ⟨[], [], rfl, fun new => by simp⟩
  | cons side path ih =>
    cases e with
    | literal l => cases there
    | apply op left right =>
      obtain _ | levels := levels
      · exact absurd fits Expr.not_depth_apply_le_zero
      · obtain ⟨fitsl, fitsr⟩ := Expr.depth_apply_le_succ_iff.1 fits
        have below : levels ≤ maxBound := Nat.le_of_succ_le supported
        rw [List.length_cons, Nat.add_sub_add_right]
        cases side with
        | left =>
          obtain ⟨before, behind, place, around⟩ := ih below fitsl there
          refine ⟨.ofKind (.operator op) :: before, behind ++ image levels right, ?_, fun new => ?_⟩
          · rw [List.length_cons, place, address, Nat.add_sub_cancel]
          · rw [Expr.graft, image_succ, around new]
            simp only [List.cons_append, List.append_assoc]
        | right =>
          -- The left operand fills all its slots, so it alone sets the distance.
          obtain ⟨before, behind, place, around⟩ := ih below fitsr there
          refine ⟨.ofKind (.operator op) :: (image levels left ++ before), behind, ?_,
            fun new => ?_⟩
          · rw [List.length_cons, List.length_append, place, length_image below fitsl, address,
              Nat.add_sub_cancel]
            omega
          · rw [Expr.graft, image_succ, around new]
            simp only [List.cons_append, List.append_assoc]

theorem encode_eq_image_of_depth {bound depth : Nat} {e : Expr} (supported : bound ≤ maxBound)
    (fits : e.depth ≤ bound - depth) :
    encode .canonical bound depth e = .ok (image (bound - depth) e) := by
  rw [encode_canonical supported, if_pos fits]

theorem encode_subtree_at_address (bound : Nat) (e node : Expr) (path : List Side)
    (supported : bound ≤ maxBound) (fits : e.depth ≤ bound)
    (there : e.subtree? path = some node) :
    (address bound [] = 0 ∧ ∀ way : List Side,
      address bound (way ++ [.left]) = address bound way + 1 ∧
      address bound (way ++ [.right]) =
        address bound way + 1 + size (bound - (way.length + 1))) ∧
    ∃ before part behind : List Slot,
      encode .canonical bound 0 e = .ok (before ++ (part ++ behind)) ∧
      before.length = address bound path ∧ part.length = size (bound - path.length) ∧
      encode .canonical bound path.length node = .ok part ∧
      encode .canonical (bound - path.length) 0 node = .ok part ∧
      ∀ new : Expr, new.depth ≤ bound - path.length → ∃ other : List Slot,
        encode .canonical (bound - path.length) 0 new = .ok other ∧
        other.length = size (bound - path.length) ∧
        encode .canonical bound 0 (e.graft path new) = .ok (before ++ (other ++ behind)) := by
  have below : bound - path.length ≤ maxBound := Nat.le_trans (Nat.sub_le _ _) supported
  have room : node.depth ≤ bound - path.length :=
    Nat.le_sub_of_add_le' (Nat.le_trans (Expr.length_add_depth_le there) fits)
  obtain ⟨before, behind, place, around⟩ := exists_around supported fits there
  refine ⟨⟨rfl, address_operand bound⟩, before, image (bound - path.length) node, behind, ?_, place,
    length_image below room, encode_eq_image_of_depth supported room, encode_eq_image below room,
    fun new fitsNew => ⟨image (bound - path.length) new, encode_eq_image below fitsNew,
      length_image below fitsNew, ?_⟩⟩
  · rw [encode_eq_image supported fits, ← around node, Expr.graft_self there]
  · rw [encode_eq_image supported (Expr.depth_graft_le there fits fitsNew), around new]

theorem encode_subtree_at_address_divisor :
    let one : Expr := .literal .one
    let two : Expr := .literal .two
    let e : Expr := .apply .add one (.apply .div (.apply .mul two one) two)
    3 ≤ maxBound ∧ e.depth ≤ 3 ∧ e.subtree? [.right, .left] = some (.apply .mul two one) ∧
      address 3 [.right, .left] = 9 ∧
      ∃ before part behind : List Slot,
        encode .canonical 3 0 e = .ok (before ++ (part ++ behind)) ∧ before.length = 9 ∧
        part.length = 3 ∧ encode .canonical 3 2 (.apply .mul two one) = .ok part ∧
        ∃ other, encode .canonical 1 0 one = .ok other ∧ encode .canonical 3 0
          (.apply .add one (.apply .div one two)) = .ok (before ++ (other ++ behind)) := by
  intro one two e
  obtain ⟨-, before, part, behind, whole, place, length, here, -, others⟩ :=
    encode_subtree_at_address 3 e (.apply .mul two one) [.right, .left] (by decide) (by decide) rfl
  obtain ⟨other, alone, -, grafted⟩ := others one (by decide)
  exact ⟨by decide, by decide, rfl, rfl, before, part, behind, whole, place, length, here, other,
    alone, grafted⟩

end OneTwo.Frame
