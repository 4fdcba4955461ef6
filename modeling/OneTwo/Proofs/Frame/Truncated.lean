import OneTwo.Proofs.Frame.Appended
import OneTwo.Proofs.Frame.Carried

/-!
Frames that are cut off. In strict mode each cut is an error at the place of the cut, which tells
whether a node or a filler is missing there first. In resilient mode the missing fillers do no harm:
the expression is read if the cut is behind its last node, and else the cut is where a node is
missed.
-/

namespace OneTwo.Frame

theorem carriesNodes_take_iff {written : List Slot} {count : Nat} :
    CarriesNodes (written.take count) written ↔
      ∀ (index : Nat) (w : Slot), written[index]? = some w → w.isFiller = false →
        index < count := by
  constructor
  · intro carried index w there node
    obtain ⟨s, slot, -⟩ := carried index w there node
    obtain ⟨inside, -⟩ := List.getElem?_eq_some_iff.1 slot
    rw [List.length_take] at inside
    omega
  · intro within index w there node
    refine ⟨w, ?_, rfl, fun _ => rfl⟩
    rw [List.getElem?_take_of_lt (within index w there node), there]

variable {bound count : Nat} {e : Expr}

theorem length_take_image (supported : bound ≤ maxBound) (fits : e.depth ≤ bound)
    (short : count < size bound) : ((image bound e).take count).length = count := by
  rw [List.length_take, length_image supported fits, Nat.min_eq_left short.le]

theorem decode_strict_take_image (supported : bound ≤ maxBound) (fits : e.depth ≤ bound)
    (short : count < size bound) :
    ∃ s, (image bound e)[count]? = some s ∧
      (decode .strict bound ((image bound e).take count)).value =
        .error (if s.isFiller then .malformedPadding count else .unexpectedEnd count) := by
  have taken := length_take_image supported fits short
  have begins : ((image bound e).take count).map Slot.bare <+: image bound e := by
    rw [List.map_take, map_bare_image]
    exact List.take_prefix count _
  obtain ⟨due, behind⟩ := Due.exists_behind supported fits begins (taken.symm ▸ short)
  obtain ⟨s, next, admitted⟩ := behind.admits_next supported fits begins
  rw [taken] at next
  refine ⟨s, next, ?_⟩
  rw [decode_strict_eq_error_iff supported]
  refine .inl ⟨_, [], due, (List.append_nil _).symm, behind, ?_⟩
  rw [taken, admitted.isFiller_eq]
  cases due with
  | node levels => exact .unexpectedEnd levels
  | filler => exact .malformedPadding fun s missing => by cases missing

theorem decode_resilient_take_image_eq_ok_iff (supported : bound ≤ maxBound)
    (fits : e.depth ≤ bound) (count : Nat) :
    (decode .resilient bound ((image bound e).take count)).value = .ok e ↔
      CarriesNodes ((image bound e).take count) (image bound e) := by
  constructor
  · intro decoded index w there node
    obtain rfl | ⟨s, slot, -⟩ := (mends_of_decode_resilient supported decoded).2 index w there
    · cases node
    · refine ⟨s, slot, ?_⟩
      obtain ⟨inside, -⟩ := List.getElem?_eq_some_iff.1 slot
      rw [List.length_take] at inside
      rw [List.getElem?_take_of_lt (by omega), there] at slot
      cases slot
      exact ⟨rfl, fun _ => rfl⟩
  · intro carried
    rw [value_decode_resilient supported]
    exact recovered_of_carriesNodes supported fits carried

theorem decode_resilient_take_image (supported : bound ≤ maxBound) (fits : e.depth ≤ bound)
    (short : count < size bound) :
    (decode .resilient bound ((image bound e).take count)).value = .error (.unexpectedEnd count) ∨
      (decode .resilient bound ((image bound e).take count)).value = .ok e := by
  have settled := decode_resilient_append bound ((image bound e).take count)
    ((image bound e).drop count)
  rw [length_take_image supported fits short, List.take_append_drop,
    decode_of_map_bare .resilient supported fits (map_bare_image bound e)] at settled
  exact settled.imp_right Eq.symm

theorem decode_take_encode (bound count : Nat) (e : Expr) (supported : bound ≤ maxBound)
    (fits : e.depth ≤ bound) (short : count < size bound) :
    ∃ written s, encode .canonical bound 0 e = .ok written ∧ written[count]? = some s ∧
      (s.isFiller = false →
        (decode .strict bound (written.take count)).value = .error (.unexpectedEnd count)) ∧
      (s.isFiller = true →
        (decode .strict bound (written.take count)).value = .error (.malformedPadding count)) ∧
      ((∀ index w, written[index]? = some w → w.isFiller = false → index < count) →
        (decode .resilient bound (written.take count)).value = .ok e) ∧
      (¬(∀ index w, written[index]? = some w → w.isFiller = false → index < count) →
        (decode .resilient bound (written.take count)).value = .error (.unexpectedEnd count)) := by
  obtain ⟨s, next, refused⟩ := decode_strict_take_image supported fits short
  have nodes := decode_resilient_take_image_eq_ok_iff supported fits count
  rw [carriesNodes_take_iff] at nodes
  refine ⟨image bound e, s, encode_eq_image supported fits, next, ?_, ?_, nodes.2, ?_⟩
  · intro node
    rw [refused, node]
    rfl
  · intro filler
    rw [refused, filler]
    rfl
  · intro lost
    obtain missed | read := decode_resilient_take_image supported fits short
    · exact missed
    · exact absurd (nodes.1 read) lost

theorem decode_take_encode_quotient :
    let e : Expr := .apply .div (.literal .two) (.apply .add (.literal .one) (.literal .two))
    let written : List Slot := [⟨.operator .div, 0⟩, .literal 2, .filler, .filler, .filler, .filler,
      .filler, .filler, ⟨.operator .add, 0⟩, .literal 1, .filler, .filler, .literal 2, .filler,
      .filler]
    3 ≤ maxBound ∧ e.depth ≤ 3 ∧ 14 < size 3 ∧ encode .canonical 3 0 e = .ok written ∧
      (decode .strict 3 (written.take 14)).value = .error (.malformedPadding 14) ∧
      (decode .resilient 3 (written.take 14)).value = .ok e ∧
      (decode .strict 3 (written.take 4)).value = .error (.malformedPadding 4) ∧
      (decode .resilient 3 (written.take 4)).value = .error (.unexpectedEnd 4) ∧
      (decode .strict 3 (written.take 8)).value = .error (.unexpectedEnd 8) ∧
      (decode .resilient 3 (written.take 8)).value = .error (.unexpectedEnd 8) := by
  intro e written
  have supported : 3 ≤ maxBound := by decide
  have fits : e.depth ≤ 3 := by decide
  have wrote : encode .canonical 3 0 e = .ok written := by decide
  have nodes : ∀ index w, written[index]? = some w → w.isFiller = false → index < 14 := by
    intro index w there node
    have each : ∀ index < 15, ∀ w ∈ written[index]?, w.isFiller = false → index < 14 := by decide
    obtain ⟨inside, -⟩ := List.getElem?_eq_some_iff.1 there
    exact each index inside w there node
  have lost (count : Nat) (before : count ≤ 12) :
      ¬∀ index w, written[index]? = some w → w.isFiller = false → index < count :=
    fun within => Nat.not_lt.2 before (within 12 (.literal 2) rfl rfl)
  obtain ⟨_, s, same, last, -, behind, read, -⟩ :=
    decode_take_encode 3 14 e supported fits (by decide)
  obtain rfl := Except.ok.inj (wrote.symm.trans same)
  obtain ⟨_, s', same, inner, -, within, -, missed⟩ :=
    decode_take_encode 3 4 e supported fits (by decide)
  obtain rfl := Except.ok.inj (wrote.symm.trans same)
  obtain ⟨_, s'', same, operand, between, -, -, missed'⟩ :=
    decode_take_encode 3 8 e supported fits (by decide)
  obtain rfl := Except.ok.inj (wrote.symm.trans same)
  obtain rfl := Option.some.inj last
  obtain rfl := Option.some.inj inner
  obtain rfl := Option.some.inj operand
  exact ⟨supported, fits, by decide, wrote, behind rfl, read nodes, within rfl,
    missed (lost 4 (by decide)), between rfl, missed' (lost 8 (by decide))⟩

end OneTwo.Frame
