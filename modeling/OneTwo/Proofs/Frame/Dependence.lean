import OneTwo.Proofs.Frame.Recovery

/-!
What the outcome of reading depends on. In either mode, the values of slots that are no literals
take no part: clearing them before reading or after it comes to the same. In resilient mode an
expression that is read depends on the slots of its nodes only, a set that is known from the
expression: padding, and whatever follows the frame, may hold anything or be missing.
-/

namespace OneTwo

namespace Cursor

def bare (c : Cursor) : Cursor :=
  ⟨c.position, c.ahead.map Slot.bare⟩

theorem available_bare (c : Cursor) (count : Nat) : c.bare.available count = c.available count := by
  simp [available, bare]

theorem skip_bare (c : Cursor) (count : Nat) : c.bare.skip count = (c.skip count).bare := by
  rw [skip, available_bare]
  simp [skip, bare, List.map_drop]

end Cursor

namespace Frame

theorem readLiteral_bare (mode : Mode) (position : Nat) (value : UInt8) (c : Cursor) :
    (readLiteral mode position value).run c.bare =
      Prod.map id Cursor.bare <$> (readLiteral mode position value).run c := by
  unfold readLiteral
  cases Literal.ofInt? value.toNat with
  | some l => cases mode <;> rfl
  | none =>
    cases mode with
    | strict => rfl
    | resilient => simp [StateT.run_bind, Reader.log]

theorem readPadding_bare (mode : Mode) (expected : Nat) (c : Cursor) :
    (readPadding mode expected).run c.bare =
      Prod.map id Cursor.bare <$> (readPadding mode expected).run c := by
  cases mode with
  | strict =>
    have fillers : ((c.bare.ahead.take expected).takeWhile Slot.isFiller).length =
        ((c.ahead.take expected).takeWhile Slot.isFiller).length := by
      have kept : Slot.isFiller ∘ Slot.bare = Slot.isFiller := funext Slot.isFiller_bare
      rw [Cursor.bare, ← List.map_take, List.takeWhile_map, List.length_map, kept]
    rw [readPadding_strict, readPadding_strict, fillers, Cursor.skip_bare]
    split <;> rfl
  | resilient =>
    rw [readPadding_resilient, readPadding_resilient, Cursor.available_bare, Cursor.skip_bare]
    split <;> rfl

theorem readAtBound_bare (mode : Mode) (bound position : Nat) (c : Cursor) :
    (readAtBound mode bound position).run c.bare =
      Prod.map id Cursor.bare <$> (readAtBound mode bound position).run c := by
  cases mode <;> rfl

theorem readNode_bare (mode : Mode) (bound levels : Nat) (c : Cursor) :
    (readNode mode bound levels).run c.bare =
      Prod.map id Cursor.bare <$> (readNode mode bound levels).run c := by
  induction levels, c using node_induction with
  | nil levels position =>
    have same : Cursor.bare ⟨position, []⟩ = ⟨position, []⟩ := rfl
    rw [same, readNode_nil]
    rfl
  | filler levels position value ahead =>
    have same : Cursor.bare ⟨position, ⟨.filler, value⟩ :: ahead⟩ =
      ⟨position, ⟨.filler, 0⟩ :: ahead.map Slot.bare⟩ := rfl
    rw [same, readNode_filler, readNode_filler]
    rfl
  | literal levels position value ahead =>
    have same : Cursor.bare ⟨position, ⟨.literal, value⟩ :: ahead⟩ =
      ⟨position, ⟨.literal, value⟩ :: ahead.map Slot.bare⟩ := rfl
    have former := readLiteral_bare mode position value ⟨position + 1, ahead⟩
    rw [Cursor.bare] at former
    rw [same, readNode_literal, readNode_literal, former]
    simp [readPadding_bare]
  | atBound position op value ahead =>
    have same : Cursor.bare ⟨position, ⟨.operator op, value⟩ :: ahead⟩ =
      ⟨position, ⟨.operator op, 0⟩ :: ahead.map Slot.bare⟩ := rfl
    rw [same, readNode_operator_zero, readNode_operator_zero]
    exact readAtBound_bare mode bound position ⟨position + 1, ahead⟩
  | operator levels position op value ahead ih =>
    have same : Cursor.bare ⟨position, ⟨.operator op, value⟩ :: ahead⟩ =
      ⟨position, ⟨.operator op, 0⟩ :: ahead.map Slot.bare⟩ := rfl
    have former := ih ⟨position + 1, ahead⟩
    rw [Cursor.bare] at former
    rw [same, readNode_operator_succ, readNode_operator_succ, former]
    simp [ih]

theorem readEnd_bare (mode : Mode) (c : Cursor) :
    (readEnd mode).run c.bare = Prod.map id Cursor.bare <$> (readEnd mode).run c := by
  obtain ⟨position, _ | ⟨s, ahead⟩⟩ := c
  · cases mode <;> rfl
  · have count : (Cursor.bare ⟨position, s :: ahead⟩).remaining =
        Cursor.remaining ⟨position, s :: ahead⟩ := List.length_map _
    cases mode <;> simp only [readEnd, StateT.run_bind, StateT.run_get, pure_bind, count] <;> rfl

theorem decode_map_bare (mode : Mode) (bound : Nat) (slots : List Slot) :
    decode mode bound (slots.map Slot.bare) = decode mode bound slots := by
  by_cases supported : bound ≤ maxBound
  · have start : Cursor.ofList (slots.map Slot.bare) = (Cursor.ofList slots).bare := rfl
    rw [decode_of_supported mode supported, decode_of_supported mode supported, start,
      readNode_bare]
    simp [readEnd_bare]
  · rw [decode_of_unsupported mode (Nat.not_le.1 supported),
      decode_of_unsupported mode (Nat.not_le.1 supported)]

theorem decode_eq_of_agrees (mode : Mode) (bound : Nat) {slots others : List Slot}
    (same : List.Forall₂ Slot.Agrees slots others) :
    decode mode bound slots = decode mode bound others := by
  rw [← decode_map_bare, Slot.forall₂_agrees_iff.1 same, decode_map_bare]

/-- Wherever a node of the expression stands, both sequences have slots that agree. -/
def AgreeAtNodes (levels : Nat) (e : Expr) (slots others : List Slot) : Prop :=
  ∀ index s, Occupied levels e index → slots[index]? = some s →
    ∃ t, others[index]? = some t ∧ s.Agrees t

namespace AgreeAtNodes

variable {levels : Nat} {s t : Slot} {slots others : List Slot}

theorem head {e : Expr} (h : AgreeAtNodes levels e (s :: slots) others) :
    ∃ t rest, others = t :: rest ∧ s.Agrees t := by
  obtain ⟨t, there, same⟩ := h 0 s (.root levels e) rfl
  cases others with
  | nil => cases there
  | cons u rest =>
    obtain rfl := Option.some.inj there
    exact ⟨u, rest, rfl, same⟩

theorem left {op : Operator} {l r : Expr}
    (h : AgreeAtNodes (levels + 1) (.apply op l r) (s :: slots) (t :: others)) :
    AgreeAtNodes levels l slots others :=
  fun index u occupied there => h (index + 1) u occupied.left there

theorem right {op : Operator} {l r : Expr}
    (h : AgreeAtNodes (levels + 1) (.apply op l r) (s :: slots) (t :: others)) :
    AgreeAtNodes levels r (slots.drop (size levels)) (others.drop (size levels)) := by
  intro index u occupied there
  rw [List.getElem?_drop, Nat.add_comm] at there ⊢
  exact h (index + (size levels + 1)) u occupied.right there

theorem of_eq {e : Expr} (h : ∀ index, Occupied levels e index → others[index]? = slots[index]?) :
    AgreeAtNodes levels e slots others := by
  intro index u occupied there
  exact ⟨u, (h index occupied).trans there, rfl, fun _ => rfl⟩

end AgreeAtNodes

theorem recovered_of_agree {levels : Nat} {c d : Cursor} {e : Expr}
    (h : recovered levels c = .ok e) (agree : AgreeAtNodes levels e c.ahead d.ahead) :
    recovered levels d = .ok e := by
  induction levels, c using node_induction generalizing d e with
  | nil levels position =>
    rw [recovered_nil] at h
    cases h
  | filler levels position value ahead =>
    rw [recovered_filler] at h
    cases h
  | literal levels position value ahead =>
    obtain ⟨place, others⟩ := d
    obtain ⟨⟨kind, other⟩, rest, rfl, kinds, values⟩ := agree.head
    obtain rfl : Slot.Kind.literal = kind := kinds
    obtain rfl : value = other := values rfl
    rw [recovered_literal] at h ⊢
    exact h
  | atBound position op value ahead =>
    obtain ⟨place, others⟩ := d
    obtain ⟨⟨kind, other⟩, rest, rfl, kinds, -⟩ := agree.head
    obtain rfl : Slot.Kind.operator op = kind := kinds
    exact h
  | operator levels position op value ahead ih =>
    obtain ⟨place, others⟩ := d
    obtain ⟨⟨kind, other⟩, rest, rfl, kinds, -⟩ := agree.head
    obtain rfl : Slot.Kind.operator op = kind := kinds
    -- Only now is it known that the node has operands, and with that which slots are theirs.
    obtain ⟨left, right, rfl, readl, readr⟩ := recovered_operator_eq_ok_iff.1 h
    exact recovered_operator_eq_ok_iff.2
      ⟨left, right, rfl, ih _ readl agree.left, ih _ readr agree.right⟩

/-- Both sides of the first part include the remarks. In the second part the sequences may also
differ in length. -/
theorem decode_depends_on_meaning :
    (∀ mode bound slots others, List.Forall₂ Slot.Agrees slots others →
      decode mode bound slots = decode mode bound others) ∧
    ∀ bound slots others e, bound ≤ maxBound → (decode .resilient bound slots).value = .ok e →
      AgreeAtNodes bound e slots others → (decode .resilient bound others).value = .ok e := by
  constructor
  · intro mode bound slots others same
    exact decode_eq_of_agrees mode bound same
  · intro bound slots others e supported decoded agree
    rw [value_decode_resilient supported] at decoded ⊢
    exact recovered_of_agree decoded agree

theorem decode_depends_on_meaning_marked_padding :
    let slots : List Slot := [⟨.operator .add, 3⟩, .literal 9, .filler, .filler,
      ⟨.operator .mul, 0⟩, .literal 2, .literal 1, .filler]
    let marked : List Slot := [⟨.operator .add, 200⟩, .literal 9, ⟨.filler, 5⟩, .filler,
      ⟨.operator .mul, 7⟩, .literal 2, .literal 1, ⟨.filler, 1⟩]
    let others : List Slot := [⟨.operator .add, 200⟩, .literal 9, ⟨.operator .div, 0⟩, .literal 5,
      ⟨.operator .mul, 7⟩, .literal 2, .literal 1, .literal 77]
    let e : Expr := .apply .add (.literal .one) (.apply .mul (.literal .two) (.literal .one))
    (List.Forall₂ Slot.Agrees slots marked ∧
      decode .strict 2 slots = decode .strict 2 marked ∧
      (decode .strict 2 slots).value = .error (.invalidLiteral 1 9)) ∧
    2 ≤ maxBound ∧ (decode .resilient 2 slots).value = .ok e ∧ AgreeAtNodes 2 e slots others ∧
      (decode .resilient 2 others).value = .ok e := by
  intro slots marked others e
  have agrees : List.Forall₂ Slot.Agrees slots marked := by decide
  have decoded : (decode .resilient 2 slots).value = .ok e := by decide +kernel
  have agree : AgreeAtNodes 2 e slots others := by
    have places : ∀ index, Occupied 2 e index → index ∈ [0, 1, 4, 5, 6] := by
      intro index occupied
      have narrow : size 0 = 1 ∧ size 1 = 3 := by decide
      simpa [e, Occupied.apply_iff, Occupied.literal_iff, narrow] using occupied
    have each : ∀ index ∈ [0, 1, 4, 5, 6], ∀ s ∈ slots[index]?, ∃ t ∈ others[index]?,
        s.Agrees t := by
      decide
    intro index s occupied there
    exact each index (places index occupied) s there
  obtain ⟨marks, nodes⟩ := decode_depends_on_meaning
  exact ⟨⟨agrees, marks .strict 2 slots marked agrees, by decide +kernel⟩, by decide, decoded,
    agree, nodes 2 slots others e (by decide) decoded agree⟩

end Frame

end OneTwo
