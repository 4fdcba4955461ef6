import OneTwo.Proofs.Frame.Recovery

/-!
Slots that carry the nodes of a frame. They hold, up to values that mean nothing, whatever the frame
has that is no filler; where it has a filler they may hold anything, and the padding at its end they
need not have at all. Resilient reading makes of them the expression of the frame.
-/

namespace OneTwo.Frame

/-- Each slot of `written` that is no filler has its like in `slots`. -/
def CarriesNodes (slots written : List Slot) : Prop :=
  ∀ (index : Nat) (w : Slot), written[index]? = some w → w.isFiller = false →
    ∃ s, slots[index]? = some s ∧ s.Agrees w

variable {s w : Slot} {slots written former latter : List Slot}

theorem carriesNodes_cons_iff :
    CarriesNodes (s :: slots) (w :: written) ↔
      (w.isFiller = false → s.Agrees w) ∧ CarriesNodes slots written := by
  constructor
  · intro h
    refine ⟨fun node => ?_, fun index v there node => h (index + 1) v there node⟩
    obtain ⟨t, first, same⟩ := h 0 w rfl node
    obtain rfl := Option.some.inj first
    exact same
  · rintro ⟨first, others⟩ (_ | index) v there node
    · obtain rfl := Option.some.inj there
      exact ⟨s, rfl, first node⟩
    · exact others index v there node

theorem carriesNodes_append_iff :
    CarriesNodes slots (former ++ latter) ↔
      CarriesNodes slots former ∧ CarriesNodes (slots.drop former.length) latter := by
  constructor
  · intro h
    constructor
    · intro index v there node
      obtain ⟨inside, -⟩ := List.getElem?_eq_some_iff.1 there
      refine h index v ?_ node
      rw [List.getElem?_append_left inside, there]
    · intro index v there node
      rw [List.getElem?_drop]
      refine h (former.length + index) v ?_ node
      rw [List.getElem?_append_right (Nat.le_add_right _ _), Nat.add_sub_cancel_left, there]
  · rintro ⟨first, second⟩ index v there node
    by_cases inside : index < former.length
    · rw [List.getElem?_append_left inside] at there
      exact first index v there node
    · obtain ⟨further, rfl⟩ := Nat.exists_eq_add_of_le (Nat.not_lt.1 inside)
      rw [List.getElem?_append_right (Nat.le_add_right _ _), Nat.add_sub_cancel_left] at there
      have slot := second further v there node
      rw [List.getElem?_drop] at slot
      exact slot

theorem carriesNodes_replicate (slots : List Slot) (count : Nat) :
    CarriesNodes slots (List.replicate count .filler) := by
  intro index v there node
  obtain rfl := List.eq_of_mem_replicate (List.mem_of_getElem? there)
  cases node

theorem CarriesNodes.uncons (h : CarriesNodes slots (w :: written)) (node : w.isFiller = false) :
    ∃ s rest, slots = s :: rest ∧ s.Agrees w ∧ CarriesNodes rest written := by
  cases slots with
  | nil =>
    obtain ⟨s, there, -⟩ := h 0 w rfl node
    cases there
  | cons s rest =>
    obtain ⟨first, others⟩ := carriesNodes_cons_iff.1 h
    exact ⟨s, rest, rfl, first node, others⟩

theorem CarriesNodes.cases (h : CarriesNodes slots written) (length : slots.length = written.length)
    (plain : written.map Slot.bare = written) :
    slots.map Slot.bare = written ∨ ∃ front s rest, slots = front ++ s :: rest ∧
      s.isFiller = false ∧ front.map Slot.bare ++ [.filler] <+: written := by
  induction written generalizing slots with
  | nil =>
    rw [List.eq_nil_of_length_eq_zero length]
    exact .inl rfl
  | cons w written ih =>
    obtain _ | ⟨s, slots⟩ := slots
    · cases length
    · obtain ⟨first, others⟩ := carriesNodes_cons_iff.1 h
      obtain ⟨bare, plain⟩ := List.cons_eq_cons.1 plain
      by_cases same : s.bare = w
      · obtain whole | ⟨front, t, rest, rfl, other, begins⟩ :=
          ih others (Nat.succ_inj.1 length) plain
        · exact .inl (congrArg₂ List.cons same whole)
        · refine .inr ⟨s :: front, t, rest, rfl, other, ?_⟩
          rw [List.map_cons, same, List.cons_append, List.cons_prefix_cons]
          exact ⟨rfl, begins⟩
      · have filler : w = .filler := by
          rw [← bare, Slot.bare_eq_filler_iff, ← Bool.not_eq_false]
          intro node
          exact same ((Slot.agrees_iff_bare.1 (first node)).trans bare)
        refine .inr ⟨[], s, slots, rfl, ?_, ?_⟩
        · rw [← Bool.not_eq_true, ← Slot.bare_eq_filler_iff, ← filler]
          exact same
        · rw [filler, List.map_nil, List.nil_append, List.cons_prefix_cons]
          exact ⟨rfl, List.nil_prefix⟩

variable {levels : Nat}

theorem carriesNodes_image_literal_iff {l : Literal} :
    CarriesNodes (s :: slots) (image levels (.literal l)) ↔ s = .ofLiteral l := by
  rw [image, carriesNodes_cons_iff, Slot.agrees_iff_bare, Slot.bare_ofLiteral,
    Slot.bare_eq_ofLiteral_iff]
  exact ⟨fun h => h.1 rfl, fun h => ⟨fun _ => h, carriesNodes_replicate slots _⟩⟩

theorem carriesNodes_image_apply_iff {op : Operator} {left right : Expr}
    (supported : levels ≤ maxBound) (fits : left.depth ≤ levels) :
    CarriesNodes (s :: slots) (image (levels + 1) (.apply op left right)) ↔
      s.kind = .operator op ∧ CarriesNodes slots (image levels left) ∧
        CarriesNodes (slots.drop (size levels)) (image levels right) := by
  rw [image_succ, carriesNodes_cons_iff, carriesNodes_append_iff, length_image supported fits,
    Slot.agrees_iff_bare, Slot.bare_ofKind, Slot.bare_eq_ofKind_operator_iff]
  exact and_congr_left fun _ => ⟨fun h => h rfl, fun h _ => h⟩

theorem recovered_of_carriesNodes {e : Expr} {c : Cursor} (supported : levels ≤ maxBound)
    (fits : e.depth ≤ levels) (carried : CarriesNodes c.ahead (image levels e)) :
    recovered levels c = .ok e := by
  induction e generalizing levels c with
  | literal l =>
    obtain ⟨position, ahead⟩ := c
    obtain ⟨s, rest, rfl, -, -⟩ := CarriesNodes.uncons carried rfl
    obtain rfl := carriesNodes_image_literal_iff.1 carried
    rw [Slot.ofLiteral, Slot.literal, recovered_literal]
    cases l <;> rfl
  | apply op left right ihl ihr =>
    obtain _ | levels := levels
    · exact absurd fits Expr.not_depth_apply_le_zero
    · have below : levels ≤ maxBound := Nat.le_of_succ_le supported
      obtain ⟨fitsl, fitsr⟩ := Expr.depth_apply_le_succ_iff.1 fits
      obtain ⟨position, ahead⟩ := c
      obtain ⟨⟨kind, value⟩, rest, rfl, -, -⟩ := CarriesNodes.uncons carried rfl
      obtain ⟨rfl, carriedl, carriedr⟩ := (carriesNodes_image_apply_iff below fitsl).1 carried
      exact recovered_operator_eq_ok_iff.2
        ⟨left, right, rfl, ihl below fitsl carriedl, ihr below fitsr carriedr⟩

end OneTwo.Frame
