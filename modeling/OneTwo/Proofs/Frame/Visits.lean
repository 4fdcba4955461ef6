import OneTwo.Proofs.Frame.Strict
import OneTwo.Proofs.Frame.Survey

/-!
Both modes in step. The visits of a reading are the nodes that it arrives at, each with its levels
above the bound and the cursor in front of it; they are the nodes that a survey counts. Where strict
reading comes to an expression, resilient reading pays the same visits, gets the same node from each
of them, leaves off at the same slot and has nothing to remark.
-/

namespace OneTwo.Frame

structure Visit where
  levels : Nat
  start : Cursor

/-- The visit of a node and of those below it. The right operand is arrived at only if the left one
is read. -/
def visits (mode : Mode) (bound : Nat) : (levels : Nat) → Cursor → List Visit
  | 0, c => [⟨0, c⟩]
  | levels + 1, c =>
    ⟨levels + 1, c⟩ ::
      match c.ahead with
      | ⟨.operator _, _⟩ :: ahead =>
        visits mode bound levels ⟨c.position + 1, ahead⟩ ++
          match outcome ((readNode mode bound levels).run ⟨c.position + 1, ahead⟩) with
          | .ok (_, d) => visits mode bound levels d
          | .error _ => []
      | _ => []

section Node

variable (mode : Mode) (bound levels depth position : Nat) (value : UInt8) (ahead : List Slot)

theorem visits_nil :
    visits mode bound levels ⟨position, []⟩ = [⟨levels, ⟨position, []⟩⟩] := by
  cases levels <;> rfl

theorem visits_filler :
    visits mode bound levels ⟨position, ⟨.filler, value⟩ :: ahead⟩ =
      [⟨levels, ⟨position, ⟨.filler, value⟩ :: ahead⟩⟩] := by
  cases levels <;> rfl

theorem visits_literal :
    visits mode bound levels ⟨position, ⟨.literal, value⟩ :: ahead⟩ =
      [⟨levels, ⟨position, ⟨.literal, value⟩ :: ahead⟩⟩] := by
  cases levels <;> rfl

end Node

section Operator

variable {mode : Mode} {bound levels position : Nat} {ahead : List Slot}

theorem visits_operator_of_ok (op : Operator) (value : UInt8) {e : Expr} {d : Cursor}
    (h : outcome ((readNode mode bound levels).run ⟨position + 1, ahead⟩) = .ok (e, d)) :
    visits mode bound (levels + 1) ⟨position, ⟨.operator op, value⟩ :: ahead⟩ =
      ⟨levels + 1, ⟨position, ⟨.operator op, value⟩ :: ahead⟩⟩ ::
        (visits mode bound levels ⟨position + 1, ahead⟩ ++ visits mode bound levels d) := by
  simp only [visits, h]

theorem visits_operator_of_error (op : Operator) (value : UInt8) {error : FrameError}
    (h : outcome ((readNode mode bound levels).run ⟨position + 1, ahead⟩) = .error error) :
    visits mode bound (levels + 1) ⟨position, ⟨.operator op, value⟩ :: ahead⟩ =
      ⟨levels + 1, ⟨position, ⟨.operator op, value⟩ :: ahead⟩⟩ ::
        visits mode bound levels ⟨position + 1, ahead⟩ := by
  simp only [visits, h, List.append_nil]

end Operator

theorem depths_visits (mode : Mode) (bound levels depth : Nat) (c : Cursor) :
    (visits mode bound levels c).map (fun v => depth + levels - v.levels) =
      ((surveyNode mode bound levels depth).run c).depths := by
  induction levels, c using node_induction generalizing depth with
  | nil levels position =>
    rw [visits_nil, surveyNode, List.map_singleton, Nat.add_sub_cancel]
    rfl
  | filler levels position value ahead =>
    rw [visits_filler, surveyNode, List.map_singleton, Nat.add_sub_cancel]
    rfl
  | literal levels position value ahead =>
    rw [visits_literal, depths_surveyNode_literal, List.map_singleton, Nat.add_sub_cancel]
  | atBound position op value ahead =>
    rw [surveyNode]
    rfl
  | operator levels position op value ahead ih =>
    have deeper : depth + (levels + 1) = depth + 1 + levels := by omega
    have same := reading_surveyNode mode bound levels (depth + 1) ⟨position + 1, ahead⟩
    rw [surveyNode_operator_succ, Surveyed.bind_depths_of_ok _ rfl]
    cases read : outcome ((readNode mode bound levels).run ⟨position + 1, ahead⟩) with
    | error error =>
      rw [visits_operator_of_error op value read, List.map_cons, Nat.add_sub_cancel, deeper, ih,
        Surveyed.bind_depths_of_error _ ((congrArg outcome same).trans read)]
      rfl
    | ok a =>
      rw [visits_operator_of_ok op value read, List.map_cons, Nat.add_sub_cancel, deeper,
        List.map_append, ih, ih,
        Surveyed.bind_depths_of_ok _ ((congrArg outcome same).trans read),
        Surveyed.bind_depths_of_nil _ fun b => rfl]
      rfl

/-- In either mode the visited node is read from its own slots, and nothing is remarked. -/
def ReadAlike (bound : Nat) (v : Visit) : Prop :=
  ∃ node, ∀ mode, (readNode mode bound v.levels).run v.start =
    pure (node, ⟨v.start.position + size v.levels, v.start.ahead.drop (size v.levels)⟩)

variable {bound levels : Nat} {c d : Cursor} {e : Expr}

theorem readNode_of_strict (h : outcome ((readNode .strict bound levels).run c) = .ok (e, d))
    (mode : Mode) : (readNode mode bound levels).run c = pure (e, d) := by
  obtain ⟨fits, front, way, same⟩ := passes_of_readNode_strict h
  exact readNode_of_passes mode bound fits way same

theorem readAlike_of_strict (supported : levels ≤ maxBound)
    (h : outcome ((readNode .strict bound levels).run c) = .ok (e, d)) :
    ReadAlike bound ⟨levels, c⟩ := by
  obtain ⟨fits, front, way, same⟩ := passes_of_readNode_strict h
  have count : front.length = size levels := by
    rw [← length_image supported fits, ← same, List.length_map]
  have taken : d = ⟨c.position + size levels, c.ahead.drop (size levels)⟩ := by
    rw [← way.skip_eq, count, Cursor.skip_of_le]
    rw [Cursor.remaining, way.ahead_eq, List.length_append, count]
    exact Nat.le_add_right _ _
  rw [taken] at h
  exact ⟨e, readNode_of_strict h⟩

theorem visits_of_strict (supported : levels ≤ maxBound)
    (h : outcome ((readNode .strict bound levels).run c) = .ok (e, d)) :
    visits .resilient bound levels c = visits .strict bound levels c ∧
      ∀ v ∈ visits .strict bound levels c, ReadAlike bound v := by
  induction h using read_induction with
  | literal levels position value ahead e d h =>
    rw [visits_literal, visits_literal]
    exact ⟨rfl, List.forall_mem_singleton.2 (readAlike_of_strict supported h)⟩
  | atBound position op value ahead e d h =>
    rw [readNode_operator_zero] at h
    cases h
  | operator levels position op value ahead left middle right last readl readr h ihl ihr =>
    have below : levels ≤ maxBound := Nat.le_of_succ_le supported
    have itself := readAlike_of_strict supported h
    obtain ⟨samel, alikel⟩ := ihl below
    obtain ⟨samer, aliker⟩ := ihr below
    have resilient := congrArg outcome (readNode_of_strict readl .resilient)
    rw [visits_operator_of_ok op value resilient, visits_operator_of_ok op value readl, samel,
      samer]
    refine ⟨rfl, List.forall_mem_cons.2 ⟨itself, fun v among => ?_⟩⟩
    obtain former | latter := List.mem_append.1 among
    · exact alikel v former
    · exact aliker v latter

theorem decode_resilient_of_strict (bound : Nat) (slots : List Slot) (e : Expr)
    (accepted : (decode .strict bound slots).value = .ok e) :
    decode .resilient bound slots = pure (.ok e) ∧
      visits .resilient bound bound (Cursor.ofList slots) =
        visits .strict bound bound (Cursor.ofList slots) ∧
      (∀ v ∈ visits .strict bound bound (Cursor.ofList slots), ReadAlike bound v) ∧
      ∀ mode, (visits mode bound bound (Cursor.ofList slots)).map (fun v => bound - v.levels) =
        (survey mode bound slots).depths := by
  obtain ⟨supported, fits, same⟩ := map_bare_of_decode_strict accepted
  have way : (Cursor.ofList slots).Passes slots ⟨slots.length, []⟩ :=
    ⟨(List.append_nil slots).symm, (Nat.zero_add _).symm⟩
  have read := readNode_of_passes .strict bound fits way same
  obtain ⟨alike, each⟩ := visits_of_strict supported (congrArg outcome read)
  refine ⟨decode_of_map_bare .resilient supported fits same, alike, each, fun mode => ?_⟩
  rw [depths_survey mode supported, ← depths_visits, Nat.zero_add]

theorem decode_resilient_of_strict_sum :
    let slots : List Slot := [⟨.operator .add, 3⟩, ⟨.operator .div, 0⟩, .literal 2, .literal 1,
      .literal 2, ⟨.filler, 9⟩, .filler]
    let e : Expr := .apply .add (.apply .div (.literal .two) (.literal .one)) (.literal .two)
    (decode .strict 2 slots).value = .ok e ∧ decode .resilient 2 slots = pure (.ok e) ∧
      visits .resilient 2 2 (Cursor.ofList slots) = visits .strict 2 2 (Cursor.ofList slots) ∧
      (visits .resilient 2 2 (Cursor.ofList slots)).map (fun v => (v.levels, v.start.position)) =
        [(2, 0), (1, 1), (0, 2), (0, 3), (1, 4)] ∧
      (∀ v ∈ visits .strict 2 2 (Cursor.ofList slots), ReadAlike 2 v) ∧
      (survey .resilient 2 slots).depths = [0, 1, 2, 2, 1] := by
  intro slots e
  have accepted : (decode .strict 2 slots).value = .ok e := by decide +kernel
  have places : (visits .resilient 2 2 (Cursor.ofList slots)).map
      (fun v => (v.levels, v.start.position)) = [(2, 0), (1, 1), (0, 2), (0, 3), (1, 4)] := by
    decide +kernel
  obtain ⟨same, alike, each, surveyed⟩ := decode_resilient_of_strict 2 slots e accepted
  refine ⟨accepted, same, alike, places, each, ?_⟩
  rw [← surveyed]
  decide +kernel

end OneTwo.Frame
