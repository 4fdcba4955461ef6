import OneTwo.Slot.Basic

/-!
A reading place in a sequence of slots: how many are behind it and which are ahead. It only ever
moves forward, and stops at the end.
-/

namespace OneTwo

structure Cursor where
  position : Nat
  ahead : List Slot

namespace Cursor

def ofList (slots : List Slot) : Cursor :=
  ⟨0, slots⟩

def remaining (c : Cursor) : Nat :=
  c.ahead.length

def peek? (c : Cursor) : Option Slot :=
  c.ahead.head?

/-- How many of the next `count` slots there are. -/
def available (c : Cursor) (count : Nat) : Nat :=
  (c.ahead.take count).length

theorem available_eq (c : Cursor) (count : Nat) : c.available count = min count c.remaining :=
  List.length_take

def skip (c : Cursor) (count : Nat) : Cursor :=
  ⟨c.position + c.available count, c.ahead.drop count⟩

theorem skip_position_add_remaining (c : Cursor) (count : Nat) :
    (c.skip count).position + (c.skip count).remaining = c.position + c.remaining := by
  simp only [skip, available_eq, remaining, List.length_drop]
  omega

def next (c : Cursor) : Option Slot × Cursor :=
  match c.ahead with
  | [] => (none, c)
  | s :: ahead => (some s, ⟨c.position + 1, ahead⟩)

theorem next_snd (c : Cursor) : c.next.2 = c.skip 1 := by
  obtain ⟨position, _ | ⟨s, ahead⟩⟩ := c <;> simp [next, skip, available]

end Cursor

end OneTwo
