import OneTwo.Frame.Size

/-!
Addresses of nodes. The path from the root to a node alone tells the slot that the node has in a
frame: a left operand stands right behind its operator, and a right one behind all the slots that
the left one owns, whether it fills them or not.
-/

namespace OneTwo.Frame

inductive Side where
  | left
  | right
  deriving DecidableEq

/-- The slot at the end of a path that starts so many levels above the bound. -/
def address : (levels : Nat) → (path : List Side) → Nat
  | _, [] => 0
  | levels, .left :: path => address (levels - 1) path + 1
  | levels, .right :: path => address (levels - 1) path + (size (levels - 1) + 1)

/-- The slots on the last level, where an operator has no room. -/
def OnLastLevel (levels index : Nat) : Prop :=
  ∃ path : List Side, path.length = levels ∧ address levels path = index

theorem onLastLevel_zero : OnLastLevel 0 0 :=
  ⟨[], rfl, rfl⟩

theorem OnLastLevel.left {levels index : Nat} (h : OnLastLevel levels index) :
    OnLastLevel (levels + 1) (index + 1) := by
  obtain ⟨path, count, place⟩ := h
  exact ⟨.left :: path, congrArg (· + 1) count, congrArg (· + 1) place⟩

theorem OnLastLevel.right {levels index : Nat} (h : OnLastLevel levels index) :
    OnLastLevel (levels + 1) (index + (size levels + 1)) := by
  obtain ⟨path, count, place⟩ := h
  exact ⟨.right :: path, congrArg (· + 1) count, congrArg (· + (size levels + 1)) place⟩

end OneTwo.Frame
