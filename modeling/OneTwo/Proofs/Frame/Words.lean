import OneTwo.Proofs.Frame.Image
import OneTwo.Proofs.Word

/-!
Encoding in words of 64 bits. Padding is counted from a power of two, with a check wherever a word
may be too small; the bound, the depths and the room for the slots are words as well. No check ever
fails: a node is gone into only above the bound, so no depth is counted past it, and the bound
leaves few slots. So encoding in words is encoding as such, for every bound and every depth that a
word can hold.
-/

namespace OneTwo

theorem Expr.depth_le_sub_iff {bound depth : Nat} {e : Expr} :
    e.depth ≤ bound - depth ↔ e.isLiteral = true ∨ depth + e.depth ≤ bound := by
  cases e with
  | literal l => simp [Expr.depth, isLiteral]
  | apply op left right =>
    simp only [Expr.depth, isLiteral, Bool.false_eq_true, false_or]
    omega

namespace Frame

section Padding

theorem slotsBelow_add_two (levels : Nat) : slotsBelow levels + 2 = 2 ^ (levels + 1) := by
  induction levels with
  | zero => rfl
  | succ levels ih =>
    rw [slotsBelow, Nat.pow_succ, ← ih]
    omega

theorem two_pow_lt_size {levels : Nat} (few : levels < 63) : 2 ^ (levels + 1) < UInt64.size :=
  Nat.lt_of_le_of_lt (Nat.pow_le_pow_right Nat.two_pos few) (by decide)

/-- The power of two that is two more than the padding, if it fits. Its exponent must be no longer
than 32 bits. -/
def powerAbove? (levels : UInt64) : Option UInt64 :=
  let exponent := (Word.saturatingAdd levels 1).toNat
  if exponent < UInt32.size then Word.pow? 2 exponent else none

def paddingInWords (levels : UInt64) : Option UInt64 :=
  match powerAbove? levels with
  | some power => Word.sub? power 2
  | none => some (.ofNat maxWord)

variable {levels : UInt64}

theorem powerAbove?_of_lt (few : levels.toNat < 63) :
    powerAbove? levels = some (.ofNat (2 ^ (levels.toNat + 1))) := by
  have exponent : (Word.saturatingAdd levels 1).toNat = levels.toNat + 1 := by
    rw [Word.toNat_saturatingAdd]
    exact Nat.min_eq_left (Nat.le_trans few (by decide))
  have narrow : levels.toNat + 1 < UInt32.size := Nat.lt_of_le_of_lt few (by decide)
  rw [powerAbove?, exponent, if_pos narrow]
  exact Word.ofNat?_of_lt (two_pow_lt_size few)

theorem powerAbove?_of_le (many : 63 ≤ levels.toNat) : powerAbove? levels = none := by
  have exponent : 64 ≤ (Word.saturatingAdd levels 1).toNat := by
    rw [Word.toNat_saturatingAdd]
    exact Nat.le_min.2 ⟨Nat.succ_le_succ many, by decide⟩
  have large : UInt64.size ≤ 2 ^ (Word.saturatingAdd levels 1).toNat :=
    Nat.pow_le_pow_right Nat.two_pos exponent
  rw [powerAbove?]
  split
  · exact Word.ofNat?_of_le large
  · rfl

theorem paddingInWords_eq (levels : UInt64) :
    paddingInWords levels = some (.ofNat (padding levels.toNat)) := by
  by_cases few : levels.toNat < 63
  · have power : (UInt64.ofNat (2 ^ (levels.toNat + 1))).toNat = slotsBelow levels.toNat + 2 :=
      (UInt64.toNat_ofNat_of_lt' (two_pow_lt_size few)).trans (slotsBelow_add_two _).symm
    have two : (2 : UInt64).toNat ≤ (UInt64.ofNat (2 ^ (levels.toNat + 1))).toNat := by
      rw [power]
      exact Nat.le_add_left 2 _
    rw [paddingInWords, powerAbove?_of_lt few, padding_of_lt few]
    simp only [Word.sub?_of_le two, power]
    rfl
  · rw [paddingInWords, powerAbove?_of_le (Nat.not_lt.1 few), padding_of_le (Nat.not_lt.1 few)]

theorem paddingInWords_saturatingSub (bound depth : UInt64) :
    ∃ fillers : UInt64, paddingInWords (Word.saturatingSub bound depth) = some fillers ∧
      fillers.toNat = padding (bound.toNat - depth.toNat) := by
  refine ⟨_, paddingInWords_eq _, ?_⟩
  rw [Word.toNat_saturatingSub]
  exact UInt64.toNat_ofNat_of_lt' (Nat.lt_of_le_of_lt (padding_le_maxWord _) (by decide))

end Padding

/-- A computation in words: nothing at all, if a checked operation has no result. -/
abbrev Checked := ExceptT FrameError Option

def slotsInWords (layout : Layout) (bound depth : UInt64) : Expr → Checked (List Slot)
  | .literal l => do
    let fillers ← paddingInWords (Word.saturatingSub bound depth)
    return .ofLiteral l :: List.replicate fillers.toNat .filler
  | .apply op left right =>
    if bound ≤ depth then
      throw (.depthExceeded depth.toNat bound.toNat)
    else do
      let below ← Word.add? depth 1
      let first ←
        if layout.repeatsRight op then slotsInWords layout bound below right
        else slotsInWords layout bound below left
      let second ← slotsInWords layout bound below right
      return .ofKind (.operator op) :: (first ++ second)

/-- Room is made for the padding and one slot more before the first slot is written. -/
def encodeInWords (layout : Layout) (bound depth : UInt64) (e : Expr) : Checked (List Slot) := do
  checkBound bound.toNat
  let fillers ← paddingInWords (Word.saturatingSub bound depth)
  let _room ← Word.add? fillers 1
  slotsInWords layout bound depth e

section Run

variable {α β : Type}

theorem run_bind_of_run {x : Checked α} {y : Except FrameError α} {f : α → Checked β}
    {g : α → Except FrameError β} (h : x.run = some y) (each : ∀ a, (f a).run = some (g a)) :
    (x >>= f).run = some (y >>= g) := by
  rw [ExceptT.run_bind, h]
  cases y with
  | ok a => exact each a
  | error error => rfl

theorem run_bind_of_some {result : Option UInt64} {word : UInt64} {f : UInt64 → Checked β}
    (h : result = some word) : ((result : Checked UInt64) >>= f).run = (f word).run := by
  rw [h]
  rfl

end Run

theorem run_slotsInWords (layout : Layout) (bound depth : UInt64) (e : Expr) :
    (slotsInWords layout bound depth e).run = some (slots layout bound.toNat depth.toNat e) := by
  induction e generalizing depth with
  | literal l =>
    obtain ⟨fillers, counted, count⟩ := paddingInWords_saturatingSub bound depth
    rw [slotsInWords, run_bind_of_some counted, count, slots]
    rfl
  | apply op left right ihl ihr =>
    by_cases room : depth.toNat < bound.toNat
    · -- A depth above the bound is never the largest word.
      have fits : depth.toNat + 1 < UInt64.size := Nat.lt_of_le_of_lt room bound.toNat_lt
      have below : Word.add? depth 1 = some (.ofNat (depth.toNat + 1)) := Word.ofNat?_of_lt fits
      have next : (UInt64.ofNat (depth.toNat + 1)).toNat = depth.toNat + 1 :=
        UInt64.toNat_ofNat_of_lt' fits
      have lefts := ihl (.ofNat (depth.toNat + 1))
      have rights := ihr (.ofNat (depth.toNat + 1))
      rw [next] at lefts rights
      rw [slotsInWords, if_neg (UInt64.not_le.2 (UInt64.lt_iff_toNat_lt.2 room)),
        run_bind_of_some below, slots, if_neg (Nat.not_le.2 room)]
      dsimp only
      split
      · exact run_bind_of_run rights fun first => run_bind_of_run rights fun second => rfl
      · exact run_bind_of_run lefts fun first => run_bind_of_run rights fun second => rfl
    · have full : bound.toNat ≤ depth.toNat := Nat.not_lt.1 room
      rw [slotsInWords, if_pos (UInt64.le_iff_toNat_le.2 full), slots, if_pos full]
      rfl

theorem run_encodeInWords (layout : Layout) (bound depth : UInt64) (e : Expr) :
    (encodeInWords layout bound depth e).run =
      some (encode layout bound.toNat depth.toNat e) := by
  by_cases supported : bound.toNat ≤ maxBound
  · obtain ⟨fillers, counted, count⟩ := paddingInWords_saturatingSub bound depth
    have few : bound.toNat - depth.toNat ≤ maxBound := Nat.le_trans (Nat.sub_le _ _) supported
    have small : fillers.toNat + 1 < UInt64.size := by
      rw [count, padding_of_lt (Nat.lt_of_le_of_lt few (by decide))]
      exact Nat.lt_of_le_of_lt (Nat.succ_le_succ (slotsBelow_mono few)) (by decide)
    have room : Word.add? fillers 1 = some (.ofNat (fillers.toNat + 1)) := Word.ofNat?_of_lt small
    rw [encodeInWords, encode, checkBound_of_le supported]
    refine run_bind_of_run rfl fun _ => ?_
    rw [run_bind_of_some counted, run_bind_of_some room]
    exact run_slotsInWords layout bound depth e
  · rw [encodeInWords, encode, checkBound_of_lt (Nat.not_le.1 supported)]
    rfl

/-- The depth may be any word, also the bound or beyond: a literal has room there, and of an
operator the depth itself is reported. -/
theorem encode_canonical_in_words (bound depth : UInt64) (e : Expr) :
    (encodeInWords .canonical bound depth e).run =
      some (encode .canonical bound.toNat depth.toNat e) ∧
    (encode .canonical bound.toNat depth.toNat e =
        .error (.boundTooLarge bound.toNat maxBound) ↔ maxBound < bound.toNat) ∧
    ((∃ slots, encode .canonical bound.toNat depth.toNat e = .ok slots) ↔
      bound.toNat ≤ maxBound ∧ (e.isLiteral = true ∨ depth.toNat + e.depth ≤ bound.toNat)) ∧
    (∀ slots, encode .canonical bound.toNat depth.toNat e = .ok slots →
      slots.length = 1 + padding (bound.toNat - depth.toNat)) ∧
    (encode .canonical bound.toNat depth.toNat e =
        .error (.depthExceeded (max depth.toNat bound.toNat) bound.toNat) ↔
      bound.toNat ≤ maxBound ∧ ¬(e.isLiteral = true ∨ depth.toNat + e.depth ≤ bound.toNat)) := by
  refine ⟨run_encodeInWords .canonical bound depth e, ?_⟩
  rw [← Expr.depth_le_sub_iff]
  by_cases supported : bound.toNat ≤ maxBound
  · have few : bound.toNat - depth.toNat ≤ maxBound := Nat.le_trans (Nat.sub_le _ _) supported
    rw [encode_canonical supported]
    by_cases fits : e.depth ≤ bound.toNat - depth.toNat
    · have length : (image (bound.toNat - depth.toNat) e).length =
          1 + padding (bound.toNat - depth.toNat) := by
        rw [length_image few fits, size_eq_padding_add_one few, Nat.add_comm]
      simp [supported, fits, length]
    · simp [supported, fits]
  · have unsupported : maxBound < bound.toNat := Nat.not_le.1 supported
    have refused : encode .canonical bound.toNat depth.toNat e =
        .error (.boundTooLarge bound.toNat maxBound) := by
      rw [encode, checkBound_of_lt unsupported]
      rfl
    simp [refused, supported, unsupported]

theorem encode_canonical_in_words_largest_depth :
    let last : UInt64 := 18446744073709551615
    let product : Expr := .apply .mul (.literal .one) (.literal .two)
    (encodeInWords .canonical 16 last product).run =
      some (.error (.depthExceeded 18446744073709551615 16)) ∧
    ∃ slots, encode .canonical 16 last.toNat (.literal .two) = .ok slots ∧ slots.length = 1 := by
  intro last product
  obtain ⟨words, -, -, -, deep⟩ := encode_canonical_in_words 16 last product
  obtain ⟨-, -, written, length, -⟩ := encode_canonical_in_words 16 last (.literal .two)
  have refused := deep.2 ⟨by decide, by decide⟩
  obtain ⟨slots, wrote⟩ := written.2 ⟨by decide, .inl rfl⟩
  rw [refused] at words
  exact ⟨words, slots, wrote, length slots wrote⟩

end Frame

end OneTwo
