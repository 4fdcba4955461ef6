import Mathlib.Algebra.BigOperators.Group.Finset.Basic
import OneTwo.Proofs.Frame.Words

/-!
Sizes at the largest word. The padding of a literal is a sum of powers of two, the slots of a frame
are one more, and either is the largest word where that number does not fit. Only the padding at 63
levels is not exact: it would be one less than the largest word, but it is counted from the power of
two above it, which is the first that does not fit. The frame has its exact size there, since it
takes the largest word in any case.
-/

namespace OneTwo.Frame

theorem sum_levels (levels : Nat) : ∑ i ∈ Finset.range levels, 2 ^ (i + 1) = slotsBelow levels := by
  induction levels with
  | zero => rfl
  | succ levels ih =>
    rw [Finset.sum_range_succ, ih, ← slotsBelow_add_two, slotsBelow]
    omega

section Exact

variable {levels : Nat}

theorem maxWord_le_slotsBelow (many : 63 < levels) : maxWord ≤ slotsBelow levels :=
  Nat.le_trans (by decide) (slotsBelow_mono many)

theorem padding_eq_maxWord_iff : padding levels = maxWord ↔ 63 ≤ levels := by
  by_cases few : levels < 63
  · have below : slotsBelow levels < maxWord := slotsBelow_lt_maxWord few
    rw [padding_of_lt few]
    omega
  · have many : 63 ≤ levels := Nat.not_lt.1 few
    simp only [padding_of_le many, many]

theorem padding_eq_min_iff : padding levels = min (slotsBelow levels) maxWord ↔ levels ≠ 63 := by
  obtain few | rfl | many := Nat.lt_trichotomy levels 63
  · have below : slotsBelow levels ≤ maxWord := Nat.le_of_lt (slotsBelow_lt_maxWord few)
    rw [padding_of_lt few, Nat.min_eq_left below]
    exact iff_of_true rfl (Nat.ne_of_lt few)
  · exact iff_of_false (by decide) (fun other => other rfl)
  · rw [padding_of_le (Nat.le_of_lt many), Nat.min_eq_right (maxWord_le_slotsBelow many)]
    exact iff_of_true rfl (Nat.ne_of_gt many)

theorem size_eq_min (levels : Nat) : size levels = min (slotsBelow levels + 1) maxWord := by
  obtain few | many := Nat.lt_or_ge levels 63
  · rw [size, padding_of_lt few]
  · have above : maxWord ≤ slotsBelow levels + 1 :=
      Nat.le_trans (by decide) (Nat.succ_le_succ (slotsBelow_mono many))
    rw [size, padding_of_le many, Nat.min_eq_right above]
    exact Nat.min_eq_right (Nat.le_succ maxWord)

end Exact

def sizeInWords (bound : UInt64) : Option UInt64 := do
  let fillers ← paddingInWords bound
  return Word.saturatingAdd fillers 1

theorem toNat_paddingInWords (levels : UInt64) :
    (paddingInWords levels).map UInt64.toNat = some (padding levels.toNat) := by
  have fits : padding levels.toNat < UInt64.size :=
    Nat.lt_of_le_of_lt (padding_le_maxWord _) (by decide)
  rw [paddingInWords_eq, Option.map_some, UInt64.toNat_ofNat_of_lt' fits]

theorem toNat_sizeInWords (bound : UInt64) :
    (sizeInWords bound).map UInt64.toNat = some (size bound.toNat) := by
  obtain ⟨fillers, counted, count⟩ := Option.map_eq_some_iff.1 (toNat_paddingInWords bound)
  have total : (Word.saturatingAdd fillers 1).toNat = size bound.toNat := by
    rw [Word.toNat_saturatingAdd, count]
    rfl
  rw [sizeInWords, counted, ← total]
  rfl

theorem sizes_saturate (levels : UInt64) :
    (paddingInWords levels).map UInt64.toNat = some (padding levels.toNat) ∧
    (sizeInWords levels).map UInt64.toNat = some (size levels.toNat) ∧
    ∑ i ∈ Finset.range levels.toNat, 2 ^ (i + 1) = 2 ^ (levels.toNat + 1) - 2 ∧
    (padding levels.toNat = min (2 ^ (levels.toNat + 1) - 2) maxWord ↔ levels ≠ 63) ∧
    (padding levels.toNat = maxWord ↔ 63 ≤ levels) ∧
    size levels.toNat = min (2 ^ (levels.toNat + 1) - 1) maxWord := by
  have power : 2 ^ (levels.toNat + 1) = slotsBelow levels.toNat + 2 :=
    (slotsBelow_add_two levels.toNat).symm
  have below : 2 ^ (levels.toNat + 1) - 2 = slotsBelow levels.toNat := by omega
  have frame : 2 ^ (levels.toNat + 1) - 1 = slotsBelow levels.toNat + 1 := by omega
  have exact_iff : levels ≠ 63 ↔ levels.toNat ≠ 63 := (UInt64.toNat_inj (b := 63)).not.symm
  rw [below, frame, exact_iff, UInt64.le_iff_toNat_le]
  exact ⟨toNat_paddingInWords levels, toNat_sizeInWords levels, sum_levels _, padding_eq_min_iff,
    padding_eq_maxWord_iff, size_eq_min _⟩

/-- The sum of the powers of two fits a word, but is not what counting it in words gives. -/
theorem padding_saturates_early :
    ∑ i ∈ Finset.range 63, 2 ^ (i + 1) = 18446744073709551614 ∧
      18446744073709551614 ≤ maxWord ∧ padding 63 = 18446744073709551615 ∧
      paddingInWords 63 = some 18446744073709551615 := by
  refine ⟨?_, by decide, rfl, paddingInWords_eq 63⟩
  rw [sum_levels]
  decide

end OneTwo.Frame
