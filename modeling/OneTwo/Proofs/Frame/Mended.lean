import OneTwo.Proofs.Frame.Address
import OneTwo.Proofs.Frame.Resilient
import OneTwo.Proofs.Frame.RoundTrip

/-!
What resilient reading mends. The expression that is read is written to a frame of its own, the
normal form of the slots that were read. It differs from them in the padding, at literals out of
range and at operators on the last level, and nowhere else: every other node stands in its old slot.
Slots that are missing can only be padding.
-/

namespace OneTwo.Frame

/-- What the slot `s` at an index may be in the normal form. -/
inductive Mended (levels index : Nat) (s : Slot) : Slot → Prop where
  | healthy {w : Slot} (same : w.Agrees s) : Mended levels index s w
  | padding : Mended levels index s .filler
  | literal (kind : s.kind = .literal) (invalid : Literal.ofInt? s.value.toNat = none) :
      Mended levels index s (.ofLiteral .one)
  | operator {op : Operator} (kind : s.kind = .operator op) (last : OnLastLevel levels index) :
      Mended levels index s (.ofLiteral .one)

namespace Mended

variable {levels index : Nat} {s w : Slot}

theorem left (h : Mended levels index s w) : Mended (levels + 1) (index + 1) s w := by
  cases h with
  | healthy same => exact .healthy same
  | padding => exact .padding
  | literal kind invalid => exact .literal kind invalid
  | operator kind last => exact .operator kind last.left

theorem right (h : Mended levels index s w) :
    Mended (levels + 1) (index + (size levels + 1)) s w := by
  cases h with
  | healthy same => exact .healthy same
  | padding => exact .padding
  | literal kind invalid => exact .literal kind invalid
  | operator kind last => exact .operator kind last.right

theorem recovered (levels index : Nat) (value : UInt8) :
    Mended levels index ⟨.literal, value⟩
      (.ofLiteral ((Literal.ofInt? value.toNat).getD .one)) := by
  cases known : Literal.ofInt? value.toNat with
  | none => exact .literal rfl known
  | some l =>
    have same := Int.natCast_inj.1 (Literal.ofInt?_eq_some_iff.1 known)
    refine .healthy ⟨rfl, fun _ => ?_⟩
    change UInt8.ofNat l.value = value
    rw [← same, UInt8.ofNat_toNat]

end Mended

/-- Every slot of `written` is a filler or what a slot of `slots` is mended to. -/
def Mends (levels : Nat) (slots written : List Slot) : Prop :=
  ∀ index w, written[index]? = some w →
    w = .filler ∨ ∃ s, slots[index]? = some s ∧ Mended levels index s w

theorem mends_literal {levels count : Nat} {s w : Slot} (ahead : List Slot)
    (h : Mended levels 0 s w) : Mends levels (s :: ahead) (w :: List.replicate count .filler) := by
  intro index v there
  cases index with
  | zero =>
    obtain rfl : w = v := Option.some.inj there
    exact .inr ⟨s, rfl, h⟩
  | succ index => exact .inl (List.eq_of_mem_replicate (List.mem_of_getElem? there))

theorem Mends.operator {levels : Nat} {op : Operator} {value : UInt8}
    {ahead former latter : List Slot} (first : Mends levels ahead former)
    (second : Mends levels (ahead.drop (size levels)) latter) (whole : former.length = size levels) :
    Mends (levels + 1) (⟨.operator op, value⟩ :: ahead)
      (.ofKind (.operator op) :: (former ++ latter)) := by
  intro index w there
  cases index with
  | zero =>
    obtain rfl : Slot.ofKind (.operator op) = w := Option.some.inj there
    refine .inr ⟨_, rfl, .healthy ⟨rfl, fun kind => ?_⟩⟩
    cases kind
  | succ index =>
    rw [List.getElem?_cons_succ] at there ⊢
    by_cases inside : index < size levels
    · rw [List.getElem?_append_left (by omega)] at there
      obtain filler | ⟨s, slot, mended⟩ := first index w there
      · exact .inl filler
      · exact .inr ⟨s, slot, mended.left⟩
    · obtain ⟨further, rfl⟩ := Nat.exists_eq_add_of_le (Nat.not_lt.1 inside)
      rw [List.getElem?_append_right (by omega), whole, Nat.add_sub_cancel_left] at there
      obtain filler | ⟨s, slot, mended⟩ := second further w there
      · exact .inl filler
      · rw [List.getElem?_drop] at slot
        refine .inr ⟨s, slot, ?_⟩
        have place : size levels + further + 1 = further + (size levels + 1) := by omega
        rw [place]
        exact mended.right

theorem skip_of_readNode_resilient {bound levels : Nat} {c d : Cursor} {e : Expr}
    (supported : levels ≤ maxBound)
    (h : outcome ((readNode .resilient bound levels).run c) = .ok (e, d)) :
    d = c.skip (size levels) := by
  have ending := ending_readNode bound supported c
  rw [h] at ending
  cases ending
  rfl

theorem mends_of_readNode {bound levels : Nat} {c d : Cursor} {e : Expr}
    (supported : levels ≤ maxBound)
    (h : outcome ((readNode .resilient bound levels).run c) = .ok (e, d)) :
    e.depth ≤ levels ∧ Mends levels c.ahead (image levels e) := by
  induction h using read_induction with
  | literal levels position value ahead e d h =>
    rw [outcome_readNode_literal_resilient] at h
    cases h
    exact ⟨Nat.zero_le _, mends_literal ahead (.recovered levels 0 value)⟩
  | atBound position op value ahead e d h =>
    rw [outcome_readNode_atBound_resilient] at h
    cases h
    exact ⟨Nat.le_refl _, mends_literal ahead (.operator rfl onLastLevel_zero)⟩
  | operator levels position op value ahead left middle right last readl readr h ihl ihr =>
    have below : levels ≤ maxBound := Nat.le_of_succ_le supported
    obtain ⟨fitsl, mendsl⟩ := ihl below
    obtain ⟨fitsr, mendsr⟩ := ihr below
    obtain rfl := skip_of_readNode_resilient below readl
    exact ⟨Expr.depth_apply_le_succ_iff.2 ⟨fitsl, fitsr⟩,
      mendsl.operator mendsr (length_image below fitsl)⟩

theorem mends_of_decode_resilient {bound : Nat} {slots : List Slot} {e : Expr}
    (supported : bound ≤ maxBound) (h : (decode .resilient bound slots).value = .ok e) :
    e.depth ≤ bound ∧ Mends bound slots (image bound e) := by
  rw [value_decode, outcome_readFrame_resilient supported] at h
  cases read : outcome ((readNode .resilient bound bound).run (Cursor.ofList slots)) with
  | error error =>
    rw [read] at h
    cases h
  | ok a =>
    rw [read] at h
    cases h
    exact mends_of_readNode supported read

theorem decode_resilient_normal_form (bound : Nat) (slots : List Slot) (e : Expr)
    (supported : bound ≤ maxBound) (decoded : (decode .resilient bound slots).value = .ok e) :
    e.depth ≤ bound ∧ ∃ written, encode .canonical bound 0 e = .ok written ∧
      written.length = size bound ∧ (∀ mode, decode mode bound written = pure (.ok e)) ∧
      (∀ index s w, slots[index]? = some s → written[index]? = some w →
        Mended bound index s w) ∧
      ∀ index w, slots.length ≤ index → written[index]? = some w → w = .filler := by
  obtain ⟨fits, mends⟩ := mends_of_decode_resilient supported decoded
  refine ⟨fits, image bound e, encode_eq_image supported fits, length_image supported fits,
    fun mode => decode_of_map_bare mode supported fits (map_bare_image bound e), ?_, ?_⟩
  · intro index s w slot there
    obtain rfl | ⟨t, same, mended⟩ := mends index w there
    · exact .padding
    · rw [slot] at same
      cases same
      exact mended
  · intro index w behind there
    obtain filler | ⟨s, slot, -⟩ := mends index w there
    · exact filler
    · rw [List.getElem?_eq_none behind] at slot
      cases slot

theorem decode_resilient_normal_form_truncated :
    let slots : List Slot := [⟨.operator .add, 3⟩, ⟨.operator .mul, 0⟩, .literal 9,
      ⟨.operator .div, 0⟩, .literal 2]
    let one : Expr := .literal .one
    let e : Expr := .apply .add (.apply .mul one one) (.literal .two)
    2 ≤ maxBound ∧ (decode .resilient 2 slots).value = .ok e ∧
      e.depth ≤ 2 ∧ ∃ written, encode .canonical 2 0 e = .ok written ∧
        written.length = 7 ∧ (∀ mode, decode mode 2 written = pure (.ok e)) ∧
        (∀ index s w, slots[index]? = some s → written[index]? = some w →
          Mended 2 index s w) ∧
        ∀ index w, 5 ≤ index → written[index]? = some w → w = .filler := by
  intro slots one e
  have decoded : (decode .resilient 2 slots).value = .ok e := by decide +kernel
  exact ⟨by decide, decoded, decode_resilient_normal_form 2 slots e (by decide) decoded⟩

end OneTwo.Frame
