import Mathlib.Algebra.Group.Nat.Defs
import OneTwo.Frame.Size

/-!
Arithmetic in words of 64 bits. A result that no word can hold is none, unless the operation is one
that saturates: that gives the nearest word. So what comes out of checked operations is what the
same operations give on numbers.
-/

namespace OneTwo.Word

def ofNat? (n : Nat) : Option UInt64 :=
  if n < UInt64.size then some (.ofNat n) else none

def add? (a b : UInt64) : Option UInt64 :=
  ofNat? (a.toNat + b.toNat)

def sub? (a b : UInt64) : Option UInt64 :=
  if b ≤ a then some (a - b) else none

def pow? (base : UInt64) (exponent : Nat) : Option UInt64 :=
  ofNat? (base.toNat ^ exponent)

def saturatingAdd (a b : UInt64) : UInt64 :=
  (add? a b).getD (.ofNat Frame.maxWord)

def saturatingSub (a b : UInt64) : UInt64 :=
  (sub? a b).getD 0

theorem ofNat?_of_lt {n : Nat} (fits : n < UInt64.size) : ofNat? n = some (.ofNat n) :=
  if_pos fits

theorem ofNat?_of_le {n : Nat} (large : UInt64.size ≤ n) : ofNat? n = none :=
  if_neg (Nat.not_lt.2 large)

theorem sub?_of_le {a b : UInt64} (h : b.toNat ≤ a.toNat) :
    sub? a b = some (.ofNat (a.toNat - b.toNat)) := by
  rw [sub?, if_pos (UInt64.le_iff_toNat_le.2 h), UInt64.ofNat_sub h, UInt64.ofNat_toNat,
    UInt64.ofNat_toNat]

theorem toNat_saturatingAdd (a b : UInt64) :
    (saturatingAdd a b).toNat = min (a.toNat + b.toNat) Frame.maxWord := by
  by_cases fits : a.toNat + b.toNat < UInt64.size
  · have inside : a.toNat + b.toNat ≤ Frame.maxWord := Nat.le_sub_one_of_lt fits
    rw [saturatingAdd, add?, ofNat?_of_lt fits, Option.getD_some, UInt64.toNat_ofNat_of_lt' fits,
      Nat.min_eq_left inside]
  · have large : UInt64.size ≤ a.toNat + b.toNat := Nat.not_lt.1 fits
    have beyond : Frame.maxWord ≤ a.toNat + b.toNat := Nat.le_trans (Nat.sub_le _ _) large
    rw [saturatingAdd, add?, ofNat?_of_le large, Option.getD_none, Nat.min_eq_right beyond,
      UInt64.toNat_ofNat_of_lt' (by decide)]

theorem toNat_saturatingSub (a b : UInt64) : (saturatingSub a b).toNat = a.toNat - b.toNat := by
  by_cases h : b ≤ a
  · rw [saturatingSub, sub?, if_pos h, Option.getD_some, UInt64.toNat_sub_of_le a b h]
  · have below : a.toNat ≤ b.toNat := by
      rw [UInt64.le_iff_toNat_le] at h
      omega
    rw [saturatingSub, sub?, if_neg h, Option.getD_none, Nat.sub_eq_zero_of_le below]
    rfl

theorem toNat_min (a b : UInt64) : (min a b).toNat = min a.toNat b.toNat := by
  have order : min a b = if a ≤ b then a else b := rfl
  by_cases h : a ≤ b
  · rw [order, if_pos h, Nat.min_eq_left (UInt64.le_iff_toNat_le.1 h)]
  · have above : b.toNat ≤ a.toNat :=
      Nat.le_of_lt (UInt64.lt_iff_toNat_lt.1 (UInt64.not_le.1 h))
    rw [order, if_neg h, Nat.min_eq_right above]

end OneTwo.Word
