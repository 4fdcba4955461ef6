import OneTwo.Expr.Basic
import OneTwo.Proofs.Frame.Address

/-!
Subtrees by their paths, and the slots that they own. The address of a path is the sum of the
addresses of its parts, each part starting at the level that the former one has come down to; so an
operand stands right behind its operator, or behind all the slots of the operand before it. The
slots of a subtree lie within those of the whole expression.
-/

namespace OneTwo

open OneTwo.Frame (Side)

namespace Expr

def subtree? : Expr → List Side → Option Expr
  | e, [] => some e
  | literal _, _ :: _ => none
  | apply _ left _, .left :: path => left.subtree? path
  | apply _ _ right, .right :: path => right.subtree? path

/-- The expression with the subtree at a path replaced; itself, if there is none. -/
def graft : Expr → List Side → (new : Expr) → Expr
  | _, [], new => new
  | literal l, _ :: _, _ => literal l
  | apply op left right, .left :: path, new => apply op (left.graft path new) right
  | apply op left right, .right :: path, new => apply op left (right.graft path new)

@[simp] theorem subtree?_nil (e : Expr) : e.subtree? [] = some e := by
  cases e <;> rfl

@[simp] theorem graft_nil (e new : Expr) : e.graft [] new = new := by
  cases e <;> rfl

theorem length_add_depth_le {e node : Expr} {path : List Side}
    (there : e.subtree? path = some node) : path.length + node.depth ≤ e.depth := by
  induction path generalizing e with
  | nil =>
    rw [subtree?_nil] at there
    obtain rfl := Option.some.inj there
    exact Nat.le_of_eq (Nat.zero_add _)
  | cons side path ih =>
    cases e with
    | literal l => cases there
    | apply op left right =>
      rw [List.length_cons, depth, Nat.add_right_comm, Nat.add_le_add_iff_right]
      cases side with
      | left => exact Nat.le_trans (ih there) (Nat.le_max_left _ _)
      | right => exact Nat.le_trans (ih there) (Nat.le_max_right _ _)

theorem length_le_depth {e node : Expr} {path : List Side} (there : e.subtree? path = some node) :
    path.length ≤ e.depth :=
  Nat.le_trans (Nat.le_add_right _ _) (length_add_depth_le there)

theorem graft_self {e node : Expr} {path : List Side} (there : e.subtree? path = some node) :
    e.graft path node = e := by
  induction path generalizing e with
  | nil =>
    rw [subtree?_nil] at there
    rw [graft_nil, Option.some.inj there]
  | cons side path ih =>
    cases e with
    | literal l => cases there
    | apply op left right =>
      cases side with
      | left => rw [graft, ih there]
      | right => rw [graft, ih there]

theorem depth_graft_le {e node new : Expr} {path : List Side} {levels : Nat}
    (there : e.subtree? path = some node) (fits : e.depth ≤ levels)
    (room : new.depth ≤ levels - path.length) : (e.graft path new).depth ≤ levels := by
  induction path generalizing e levels with
  | nil =>
    rw [graft_nil]
    exact room
  | cons side path ih =>
    cases e with
    | literal l => cases there
    | apply op left right =>
      obtain _ | levels := levels
      · exact absurd fits not_depth_apply_le_zero
      · obtain ⟨fitsl, fitsr⟩ := depth_apply_le_succ_iff.1 fits
        rw [List.length_cons, Nat.add_sub_add_right] at room
        cases side with
        | left => exact depth_apply_le_succ_iff.2 ⟨ih there fitsl room, fitsr⟩
        | right => exact depth_apply_le_succ_iff.2 ⟨fitsl, ih there fitsr room⟩

end Expr

namespace Frame

theorem address_append (levels : Nat) (path rest : List Side) :
    address levels (path ++ rest) = address levels path + address (levels - path.length) rest := by
  induction path generalizing levels with
  | nil => simp [address]
  | cons side path ih =>
    have below : levels - 1 - path.length = levels - (path.length + 1) := by omega
    cases side <;> simp only [List.cons_append, address, ih, below, List.length_cons] <;> omega

theorem address_operand (levels : Nat) (path : List Side) :
    address levels (path ++ [.left]) = address levels path + 1 ∧
      address levels (path ++ [.right]) =
        address levels path + 1 + size (levels - (path.length + 1)) := by
  constructor
  · rw [address_append]
    rfl
  · rw [address_append, address, address, Nat.sub_sub]
    omega

theorem address_add_size_le {levels : Nat} {path : List Side} (supported : levels ≤ maxBound)
    (inside : path.length ≤ levels) :
    address levels path + size (levels - path.length) ≤ size levels := by
  induction path generalizing levels with
  | nil => simp [address]
  | cons side path ih =>
    obtain _ | levels := levels
    · cases inside
    · have whole := size_succ supported
      have part := ih (Nat.le_of_succ_le supported) (Nat.le_of_succ_le_succ inside)
      rw [List.length_cons, Nat.add_sub_add_right]
      cases side <;> simp only [address, Nat.add_sub_cancel] <;> omega

/-- The slots in which the nodes of an expression stand, so many levels above the bound. -/
def Occupied (levels : Nat) (e : Expr) (index : Nat) : Prop :=
  ∃ path node, e.subtree? path = some node ∧ address levels path = index

namespace Occupied

variable {levels index : Nat} {op : Operator} {l r : Expr}

theorem root (levels : Nat) (e : Expr) : Occupied levels e 0 :=
  ⟨[], e, e.subtree?_nil, rfl⟩

theorem left (h : Occupied levels l index) :
    Occupied (levels + 1) (.apply op l r) (index + 1) := by
  obtain ⟨path, node, there, place⟩ := h
  exact ⟨.left :: path, node, there, congrArg (· + 1) place⟩

theorem right (h : Occupied levels r index) :
    Occupied (levels + 1) (.apply op l r) (index + (size levels + 1)) := by
  obtain ⟨path, node, there, place⟩ := h
  exact ⟨.right :: path, node, there, congrArg (· + (size levels + 1)) place⟩

theorem literal_iff {value : Literal} : Occupied levels (.literal value) index ↔ index = 0 := by
  constructor
  · rintro ⟨_ | ⟨side, path⟩, node, there, rfl⟩
    · rfl
    · cases there
  · rintro rfl
    exact .root levels _

theorem apply_iff :
    Occupied (levels + 1) (.apply op l r) index ↔
      index = 0 ∨ (∃ i, Occupied levels l i ∧ index = i + 1) ∨
        ∃ i, Occupied levels r i ∧ index = i + (size levels + 1) := by
  constructor
  · rintro ⟨_ | ⟨_ | _, path⟩, node, there, rfl⟩
    · exact .inl rfl
    · exact .inr (.inl ⟨_, ⟨path, node, there, rfl⟩, rfl⟩)
    · exact .inr (.inr ⟨_, ⟨path, node, there, rfl⟩, rfl⟩)
  · rintro (rfl | ⟨i, h, rfl⟩ | ⟨i, h, rfl⟩)
    · exact .root _ _
    · exact h.left
    · exact h.right

theorem lt_size {e : Expr} (supported : levels ≤ maxBound) (fits : e.depth ≤ levels)
    (h : Occupied levels e index) : index < size levels := by
  obtain ⟨path, node, there, rfl⟩ := h
  have inside := address_add_size_le supported (Nat.le_trans (e.length_le_depth there) fits)
  have room := size_pos (levels - path.length)
  omega

end Occupied

end Frame

end OneTwo
