/-!
The sizes of frames. A frame for the bound `n` has the slots of a complete binary tree of depth `n`.
A literal that stands some levels above the bound stands for a whole subtree: besides its own slot
it owns those of the two subtrees below, its padding, which are `2 + 4 + … + 2^k` slots at `k`
levels.

Sizes are words of 64 bits. From 63 levels on the padding is the largest word, since it is counted
from the next power of two, which no longer fits.
-/

namespace OneTwo.Frame

def maxBound : Nat := 16

def maxWord : Nat := UInt64.size - 1

/-- The slots of the two subtrees below a node, at so many levels above the bound. -/
def slotsBelow : Nat → Nat
  | 0 => 0
  | levels + 1 => 2 * (slotsBelow levels + 1)

theorem slotsBelow_mono {m n : Nat} (h : m ≤ n) : slotsBelow m ≤ slotsBelow n := by
  induction h with
  | refl => exact Nat.le_refl _
  | step _ ih => simp only [slotsBelow]; omega

def padding (levels : Nat) : Nat :=
  if levels < 63 then slotsBelow levels else maxWord

def size (bound : Nat) : Nat :=
  min (padding bound + 1) maxWord

theorem size_pos (bound : Nat) : 0 < size bound :=
  Nat.lt_min.2 ⟨Nat.succ_pos _, by decide⟩

theorem padding_of_lt {levels : Nat} (h : levels < 63) : padding levels = slotsBelow levels :=
  if_pos h

theorem padding_of_le {levels : Nat} (h : 63 ≤ levels) : padding levels = maxWord :=
  if_neg (Nat.not_lt.2 h)

theorem slotsBelow_lt_maxWord {levels : Nat} (h : levels < 63) : slotsBelow levels < maxWord :=
  Nat.lt_of_le_of_lt (slotsBelow_mono (Nat.le_of_lt_succ h)) (by decide)

theorem padding_le_maxWord (levels : Nat) : padding levels ≤ maxWord := by
  by_cases h : levels < 63
  · exact padding_of_lt h ▸ Nat.le_of_lt (slotsBelow_lt_maxWord h)
  · exact Nat.le_of_eq (padding_of_le (Nat.not_lt.1 h))

theorem size_of_lt {bound : Nat} (h : bound < 63) : size bound = slotsBelow bound + 1 := by
  have := slotsBelow_lt_maxWord h
  rw [size, padding_of_lt h]
  omega

theorem size_succ {bound : Nat} (h : bound < maxBound) : size (bound + 1) = 2 * size bound + 1 := by
  unfold maxBound at h
  rw [size_of_lt (by omega), size_of_lt (by omega), slotsBelow]

theorem size_eq_padding_add_one {bound : Nat} (h : bound ≤ maxBound) :
    size bound = padding bound + 1 := by
  unfold maxBound at h
  rw [size_of_lt (by omega), padding_of_lt (by omega)]

theorem size_lt_size {bound other : Nat} (h : bound < other) (supported : other ≤ maxBound) :
    size bound < size other := by
  have above : slotsBelow (bound + 1) ≤ slotsBelow other := slotsBelow_mono h
  unfold maxBound at supported
  rw [size_of_lt (by omega), size_of_lt (by omega)]
  rw [slotsBelow] at above
  omega

theorem size_injective {bound other : Nat} (supported : bound ≤ maxBound)
    (supported' : other ≤ maxBound) (h : size bound = size other) : bound = other := by
  obtain less | same | more := Nat.lt_trichotomy bound other
  · exact absurd h (Nat.ne_of_lt (size_lt_size less supported'))
  · exact same
  · exact absurd h (Nat.ne_of_gt (size_lt_size more supported))

end OneTwo.Frame
