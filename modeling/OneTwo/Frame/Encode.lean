import OneTwo.Expr.Basic
import OneTwo.Frame.Error
import OneTwo.Frame.Size
import OneTwo.Slot.Basic

/-!
Writing an expression to a frame: its nodes in stored order from the root, every literal followed by
its padding. So each path from the root leads to the same slots in every frame of one bound.

Two layouts are in use. The canonical one writes both operands of every operator. The legacy one
writes the right operand of a product twice and leaves out the left one, so its frames read back as
the square of that operand.
-/

namespace OneTwo.Frame

inductive Layout where
  | canonical
  | legacy
  deriving DecidableEq, Inhabited

/-- Whether the left operand is left out in favour of the right one. -/
def Layout.repeatsRight : Layout → Operator → Bool
  | legacy, .mul => true
  | _, _ => false

def slots (layout : Layout) (bound : Nat) (depth : Nat) : Expr → Except FrameError (List Slot)
  | .literal l => .ok (.ofLiteral l :: List.replicate (padding (bound - depth)) .filler)
  | .apply op left right =>
    if bound ≤ depth then
      .error (.depthExceeded depth bound)
    else do
      let first ←
        if layout.repeatsRight op then slots layout bound (depth + 1) right
        else slots layout bound (depth + 1) left
      let second ← slots layout bound (depth + 1) right
      return .ofKind (.operator op) :: (first ++ second)

def checkBound (bound : Nat) : Except FrameError Unit :=
  if bound ≤ maxBound then .ok () else .error (.boundTooLarge bound maxBound)

theorem checkBound_of_le {bound : Nat} (h : bound ≤ maxBound) : checkBound bound = .ok () :=
  if_pos h

theorem checkBound_of_lt {bound : Nat} (h : maxBound < bound) :
    checkBound bound = .error (.boundTooLarge bound maxBound) :=
  if_neg (Nat.not_le.2 h)

/-- A whole expression is encoded from depth 0; from a greater depth comes its part of a frame. -/
def encode (layout : Layout) (bound depth : Nat) (e : Expr) : Except FrameError (List Slot) := do
  checkBound bound
  slots layout bound depth e

end OneTwo.Frame
