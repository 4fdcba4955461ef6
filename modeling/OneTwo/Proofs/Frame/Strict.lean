import OneTwo.Proofs.Frame.RoundTrip

/-!
Strict reading accepts exactly the images of expressions, up to the values of slots that are no
literals. A node that is read strictly has passed the image of what was read and nothing more, since
every other slot at its place is refused; and a whole frame leaves no slot behind. The length of an
accepted sequence is thus the size of the frame, which no two bounds share.
-/

namespace OneTwo.Frame

theorem passes_of_readNode_strict {bound levels : Nat} {c d : Cursor} {e : Expr}
    (h : outcome ((readNode .strict bound levels).run c) = .ok (e, d)) :
    e.depth ≤ levels ∧ ∃ front, c.Passes front d ∧ front.map Slot.bare = image levels e := by
  induction h using read_induction with
  | literal levels position value ahead e d h =>
    rw [readNode_literal] at h
    obtain ⟨⟨l, c⟩, readl, h⟩ := outcome_bind_eq_ok_iff.1 h
    obtain ⟨rfl, rfl⟩ := readLiteral_strict_eq_ok readl
    obtain ⟨⟨u, c⟩, readp, h⟩ := outcome_bind_eq_ok_iff.1 h
    obtain ⟨fillers, way, count, each⟩ := passes_of_readPadding_strict readp
    cases h
    refine ⟨Nat.zero_le _, Slot.ofLiteral l :: fillers, way.cons, ?_⟩
    rw [List.map_cons, Slot.bare_ofLiteral, image,
      Slot.map_bare_eq_replicate_filler_iff.2 ⟨count, each⟩]
  | atBound position op value ahead e d h =>
    rw [readNode_operator_zero] at h
    cases h
  | operator levels position op value ahead left middle right last readl readr h ihl ihr =>
    obtain ⟨fitsl, former, wayl, samel⟩ := ihl
    obtain ⟨fitsr, latter, wayr, samer⟩ := ihr
    refine ⟨Expr.depth_apply_le_succ_iff.2 ⟨fitsl, fitsr⟩,
      ⟨.operator op, value⟩ :: (former ++ latter), (wayl.trans wayr).cons, ?_⟩
    rw [List.map_cons, List.map_append, samel, samer, image_succ,
      Slot.bare_eq_ofKind_operator_iff.2 rfl]

theorem map_bare_of_decode_strict {bound : Nat} {slots : List Slot} {e : Expr}
    (h : (decode .strict bound slots).value = .ok e) :
    bound ≤ maxBound ∧ e.depth ≤ bound ∧ slots.map Slot.bare = image bound e := by
  by_cases supported : bound ≤ maxBound
  · rw [decode_of_supported .strict supported] at h
    obtain ⟨⟨f, position, ahead⟩, read, h⟩ := outcome_bind_eq_ok_iff.1 h
    obtain ⟨⟨u, c⟩, finish, h⟩ := outcome_bind_eq_ok_iff.1 h
    cases h
    obtain ⟨fits, front, way, same⟩ := passes_of_readNode_strict read
    obtain _ | ⟨s, ahead⟩ := ahead
    · obtain rfl : slots = front := by simpa [Cursor.ofList] using way.ahead_eq
      exact ⟨supported, fits, same⟩
    · rw [readEnd_strict_cons, outcome_throw] at finish
      cases finish
  · rw [decode_of_unsupported .strict (Nat.not_le.1 supported)] at h
    cases h

theorem decode_strict_iff_map_bare {bound : Nat} {slots : List Slot} {e : Expr} :
    (decode .strict bound slots).value = .ok e ↔
      bound ≤ maxBound ∧ e.depth ≤ bound ∧ slots.map Slot.bare = image bound e := by
  constructor
  · exact map_bare_of_decode_strict
  · rintro ⟨supported, fits, same⟩
    rw [decode_of_map_bare .strict supported fits same]
    rfl

theorem length_of_decode_strict {bound : Nat} {slots : List Slot} {e : Expr}
    (h : (decode .strict bound slots).value = .ok e) : slots.length = size bound := by
  obtain ⟨supported, fits, same⟩ := map_bare_of_decode_strict h
  rw [← length_image supported fits, ← same, List.length_map]

/-- The value of a slot that is no literal may be any byte, and nothing else may differ. -/
theorem decode_strict_eq_ok_iff (bound : Nat) (slots : List Slot) (e : Expr)
    (supported : bound ≤ maxBound) :
    ((decode .strict bound slots).value = .ok e ↔
      e.depth ≤ bound ∧ ∃ written, encode .canonical bound 0 e = .ok written ∧
        List.Forall₂ Slot.Agrees slots written) ∧
    ((decode .strict bound slots).value = .ok e →
      slots.length = size bound ∧
        ∀ other f, (decode .strict other slots).value = .ok f → other = bound) := by
  refine ⟨?_, fun h => ⟨length_of_decode_strict h, fun other f h' => ?_⟩⟩
  · rw [decode_strict_iff_map_bare]
    constructor
    · rintro ⟨-, fits, same⟩
      refine ⟨fits, image bound e, encode_eq_image supported fits, ?_⟩
      rw [Slot.forall₂_agrees_iff, same, map_bare_image]
    · rintro ⟨fits, written, wrote, agree⟩
      obtain ⟨-, rfl⟩ := (encode_canonical_eq_ok_iff supported).1 wrote
      rw [Slot.forall₂_agrees_iff, map_bare_image] at agree
      exact ⟨supported, fits, agree⟩
  · have long : slots.length = size bound := length_of_decode_strict h
    have long' : slots.length = size other := length_of_decode_strict h'
    have supported' : other ≤ maxBound := (map_bare_of_decode_strict h').1
    exact size_injective supported' supported (long'.symm.trans long)

theorem decode_strict_marked_operators :
    let slots : List Slot := [⟨.operator .div, 7⟩, .literal 2, ⟨.filler, 9⟩, .filler,
      ⟨.operator .add, 1⟩, .literal 1, .literal 2]
    let e : Expr := .apply .div (.literal .two) (.apply .add (.literal .one) (.literal .two))
    2 ≤ maxBound ∧ (decode .strict 2 slots).value = .ok e ∧
      (e.depth ≤ 2 ∧ ∃ written, encode .canonical 2 0 e = .ok written ∧
        List.Forall₂ Slot.Agrees slots written) ∧
      slots.length = size 2 ∧
      ∀ other f, (decode .strict other slots).value = .ok f → other = 2 := by
  intro slots e
  have accepted : (decode .strict 2 slots).value = .ok e := by decide +kernel
  have exactly := decode_strict_eq_ok_iff 2 slots e (by decide)
  exact ⟨by decide, accepted, exactly.1.1 accepted, exactly.2 accepted⟩

end OneTwo.Frame
