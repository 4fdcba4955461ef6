import OneTwo.Proofs.Frame.Strict

/-!
What is due behind the first slots of a frame. It is a node, so many levels above the bound, or a
filler, since the literals among the slots still own padding. Whatever is due, the slots can be
completed to the image of an expression; and in every image that begins with them, the next slot is
one that may stand there. A strict reading fails in front of the first slot that may not.
-/

namespace OneTwo.Frame

inductive Due where
  | node (levels : Nat)
  | filler

namespace Due

def isFiller : Due → Bool
  | node _ => false
  | filler => true

/-- What is due behind the slots `front` of a node that stands so many levels above the bound. -/
inductive Behind : (levels : Nat) → (front : List Slot) → Due → Prop where
  | start (levels : Nat) : Behind levels [] (.node levels)
  | padding {levels : Nat} {fillers : List Slot} (l : Literal)
      (each : ∀ s ∈ fillers, s.isFiller = true) (short : fillers.length < padding levels) :
      Behind levels (.ofLiteral l :: fillers) .filler
  | left {levels : Nat} {front : List Slot} {due : Due} (op : Operator) (value : UInt8)
      (inner : Behind levels front due) : Behind (levels + 1) (⟨.operator op, value⟩ :: front) due
  | right {levels : Nat} {e : Expr} {former front : List Slot} {due : Due} (op : Operator)
      (value : UInt8) (fits : e.depth ≤ levels) (whole : former.map Slot.bare = image levels e)
      (inner : Behind levels front due) :
      Behind (levels + 1) (⟨.operator op, value⟩ :: (former ++ front)) due

inductive Admits : Due → Slot → Prop where
  | literal (levels : Nat) (l : Literal) : Admits (.node levels) (.ofLiteral l)
  | operator (levels : Nat) (op : Operator) (value : UInt8) :
      Admits (.node (levels + 1)) ⟨.operator op, value⟩
  | filler (value : UInt8) : Admits .filler ⟨.filler, value⟩

theorem Admits.isFiller_eq {due : Due} {s : Slot} (h : due.Admits s) :
    s.isFiller = due.isFiller := by
  cases h <;> rfl

/-- The error that answers the next slot, or the end, where it may not stand. -/
inductive Refuses (bound position : Nat) : Due → Option Slot → FrameError → Prop where
  | unexpectedEnd (levels : Nat) :
      Refuses bound position (.node levels) none (.unexpectedEnd position)
  | unexpectedFiller (levels : Nat) (value : UInt8) :
      Refuses bound position (.node levels) (some ⟨.filler, value⟩) (.unexpectedFiller position)
  | invalidLiteral (levels : Nat) {value : UInt8} (unknown : Literal.ofInt? value.toNat = none) :
      Refuses bound position (.node levels) (some ⟨.literal, value⟩)
        (.invalidLiteral position value)
  | depthExceeded (op : Operator) (value : UInt8) :
      Refuses bound position (.node 0) (some ⟨.operator op, value⟩) (.depthExceeded bound bound)
  | malformedPadding {next : Option Slot} (other : ∀ s ∈ next, s.isFiller = false) :
      Refuses bound position .filler next (.malformedPadding position)

theorem Refuses.not_admits_bare {bound position : Nat} {due : Due} {s : Slot} {error : FrameError}
    (h : Refuses bound position due (some s) error) : ¬due.Admits s.bare := by
  intro admitted
  cases h with
  | unexpectedFiller levels value =>
    have node := admitted.isFiller_eq
    cases node
  | @invalidLiteral levels value unknown =>
    generalize same : Slot.bare ⟨.literal, value⟩ = w at admitted
    cases admitted with
    | literal levels l =>
      obtain rfl : value = UInt8.ofNat l.value := congrArg Slot.value same
      cases l <;> cases unknown
    | operator levels op value => cases congrArg Slot.kind same
  | depthExceeded op value =>
    generalize same : Slot.bare ⟨.operator op, value⟩ = w at admitted
    cases admitted with
    | literal levels l => cases congrArg Slot.kind same
  | malformedPadding other =>
    have filler := admitted.isFiller_eq
    rw [Slot.isFiller_bare, other s rfl] at filler
    cases filler

theorem operator_prefix_image_iff {levels : Nat} {op : Operator} {value : UInt8}
    {front : List Slot} {e : Expr} :
    (⟨.operator op, value⟩ :: front : List Slot).map Slot.bare <+: image (levels + 1) e ↔
      ∃ left right, e = .apply op left right ∧
        front.map Slot.bare <+: image levels left ++ image levels right := by
  cases e with
  | literal l =>
    constructor
    · intro begins
      cases congrArg Slot.kind (List.cons_prefix_cons.1 begins).1
    · rintro ⟨left, right, same, -⟩
      cases same
  | apply first left right =>
    rw [List.map_cons, Slot.bare_eq_ofKind_operator_iff.2 rfl, image_succ, List.cons_prefix_cons]
    constructor
    · rintro ⟨same, operands⟩
      cases congrArg Slot.kind same
      exact ⟨left, right, rfl, operands⟩
    · rintro ⟨left, right, same, operands⟩
      cases same
      exact ⟨rfl, operands⟩

namespace Behind

variable {levels : Nat} {front : List Slot} {due : Due}

theorem exists_image (h : Behind levels front due) :
    ∃ e : Expr, e.depth ≤ levels ∧ front.map Slot.bare <+: image levels e := by
  induction h with
  | start levels => exact ⟨.literal .one, Nat.zero_le _, List.nil_prefix⟩
  | @padding levels fillers l each short =>
    have plain := Slot.map_bare_eq_replicate_filler_iff.2 ⟨rfl, each⟩
    refine ⟨.literal l, Nat.zero_le _, ?_⟩
    rw [List.map_cons, Slot.bare_ofLiteral, image, List.cons_prefix_cons, plain,
      List.prefix_replicate_iff, List.length_replicate]
    exact ⟨rfl, short.le, rfl⟩
  | @left levels front due op value inner ih =>
    obtain ⟨e, fits, begins⟩ := ih
    -- An operand that is missing is made up with a literal.
    refine ⟨.apply op e (.literal .one), Expr.depth_apply_le_succ_iff.2 ⟨fits, Nat.zero_le _⟩,
      operator_prefix_image_iff.2 ⟨e, .literal .one, rfl, ?_⟩⟩
    exact begins.trans (List.prefix_append _ _)
  | @right levels e former front due op value fits whole inner ih =>
    obtain ⟨f, fits', begins⟩ := ih
    refine ⟨.apply op e f, Expr.depth_apply_le_succ_iff.2 ⟨fits, fits'⟩,
      operator_prefix_image_iff.2 ⟨e, f, rfl, ?_⟩⟩
    rw [List.map_append, whole, List.prefix_append_right_inj]
    exact begins

theorem length_lt_size (h : Behind levels front due) (supported : levels ≤ maxBound) :
    front.length < size levels := by
  induction h with
  | start levels =>
    rw [size_eq_padding_add_one supported]
    exact Nat.succ_pos _
  | padding l each short =>
    rw [size_eq_padding_add_one supported]
    exact Nat.succ_lt_succ short
  | @left levels front due op value inner ih =>
    have inside := ih (Nat.le_of_succ_le supported)
    rw [size_succ supported, List.length_cons]
    omega
  | @right levels e former front due op value fits whole inner ih =>
    have below : levels ≤ maxBound := Nat.le_of_succ_le supported
    have inside := ih below
    have count := congrArg List.length whole
    rw [List.length_map, length_image below fits] at count
    rw [size_succ supported, List.length_cons, List.length_append]
    omega

theorem admits_next (h : Behind levels front due) (supported : levels ≤ maxBound) {e : Expr}
    (fits : e.depth ≤ levels) (begins : front.map Slot.bare <+: image levels e) :
    ∃ s, (image levels e)[front.length]? = some s ∧ due.Admits s := by
  induction h generalizing e with
  | start levels =>
    cases e with
    | literal l => exact ⟨_, rfl, .literal levels l⟩
    | apply op left right =>
      obtain _ | levels := levels
      · exact absurd fits Expr.not_depth_apply_le_zero
      · exact ⟨_, rfl, .operator levels op 0⟩
  | @padding levels fillers l each short =>
    cases e with
    | literal f =>
      refine ⟨.filler, ?_, .filler 0⟩
      rw [image, List.length_cons, List.getElem?_cons_succ, List.getElem?_replicate, if_pos short]
    | apply op left right => cases congrArg Slot.kind (List.cons_prefix_cons.1 begins).1
  | @left levels front due op value inner ih =>
    obtain ⟨left, right, rfl, operands⟩ := operator_prefix_image_iff.1 begins
    obtain ⟨fitsl, -⟩ := Expr.depth_apply_le_succ_iff.1 fits
    have below : levels ≤ maxBound := Nat.le_of_succ_le supported
    have inside := inner.length_lt_size below
    rw [← length_image below fitsl] at inside
    have former : front.map Slot.bare <+: image levels left :=
      List.prefix_of_prefix_length_le operands (List.prefix_append _ _)
        (by rw [List.length_map]; exact inside.le)
    obtain ⟨s, there, admitted⟩ := ih below fitsl former
    refine ⟨s, ?_, admitted⟩
    rw [image_succ, List.length_cons, List.getElem?_cons_succ, List.getElem?_append_left inside,
      there]
  | @right levels f former front due op value fits' whole inner ih =>
    obtain ⟨left, right, rfl, operands⟩ := operator_prefix_image_iff.1 begins
    obtain ⟨fitsl, fitsr⟩ := Expr.depth_apply_le_succ_iff.1 fits
    have below : levels ≤ maxBound := Nat.le_of_succ_le supported
    have count : (image levels f).length = (image levels left).length := by
      rw [length_image below fits', length_image below fitsl]
    have place : former.length = (image levels left).length := by
      rw [← count, ← whole, List.length_map]
    rw [List.map_append, whole] at operands
    have same : image levels f = image levels left :=
      (List.prefix_of_prefix_length_le ((List.prefix_append _ _).trans operands)
        (List.prefix_append _ _) count.le).eq_of_length count
    rw [same] at operands
    obtain ⟨s, there, admitted⟩ := ih below fitsr ((List.prefix_append_right_inj _).1 operands)
    refine ⟨s, ?_, admitted⟩
    rw [image_succ, List.length_cons, List.getElem?_cons_succ, List.length_append, place,
      List.getElem?_append_right (Nat.le_add_right _ _), Nat.add_sub_cancel_left, there]

end Behind

end Due

theorem exists_eq_takeWhile_append {count : Nat} {ahead : List Slot}
    (short : ((ahead.take count).takeWhile Slot.isFiller).length < count) :
    ∃ rest, ahead = (ahead.take count).takeWhile Slot.isFiller ++ rest ∧
      ∀ s ∈ rest.head?, s.isFiller = false := by
  rw [← List.take_takeWhile] at short ⊢
  have all : (ahead.takeWhile Slot.isFiller).take count = ahead.takeWhile Slot.isFiller := by
    rw [List.length_take] at short
    exact List.take_of_length_le (by omega)
  refine ⟨ahead.dropWhile Slot.isFiller, ?_, ?_⟩
  · rw [all, List.takeWhile_append_dropWhile]
  · intro s next
    have stopped := List.head?_dropWhile_not Slot.isFiller ahead
    rw [Option.mem_def.1 next] at stopped
    exact stopped

theorem due_of_readNode_strict {bound levels : Nat} {c : Cursor} {error : FrameError}
    (h : outcome ((readNode .strict bound levels).run c) = .error error) :
    ∃ front rest due, c.ahead = front ++ rest ∧ Due.Behind levels front due ∧
      due.Refuses bound (c.position + front.length) rest.head? error := by
  induction levels, c using node_induction generalizing error with
  | nil levels position =>
    rw [readNode_nil, outcome_throw] at h
    cases h
    exact ⟨[], [], _, rfl, .start levels, .unexpectedEnd levels⟩
  | filler levels position value ahead =>
    rw [readNode_filler, outcome_throw] at h
    cases h
    exact ⟨[], _, _, rfl, .start levels, .unexpectedFiller levels value⟩
  | literal levels position value ahead =>
    rw [readNode_literal] at h
    obtain readl | ⟨⟨l, c⟩, readl, h⟩ := outcome_bind_eq_error_iff.1 h
    · obtain ⟨unknown, rfl⟩ := readLiteral_strict_eq_error readl
      exact ⟨[], _, _, rfl, .start levels, .invalidLiteral levels unknown⟩
    · obtain ⟨rfl, rfl⟩ := readLiteral_strict_eq_ok readl
      obtain readp | ⟨⟨u, c⟩, -, h⟩ := outcome_bind_eq_error_iff.1 h
      · rw [readPadding_strict] at readp
        split at readp
        · rename_i short
          cases readp
          obtain ⟨rest, same, other⟩ := exists_eq_takeWhile_append short
          refine ⟨.ofLiteral l :: (ahead.take (padding levels)).takeWhile Slot.isFiller, rest,
            .filler, congrArg (Slot.ofLiteral l :: ·) same,
            .padding l (fun s => List.mem_takeWhile_imp) short, ?_⟩
          rw [List.length_cons, Nat.add_comm _ 1, ← Nat.add_assoc]
          exact .malformedPadding other
        · cases readp
      · cases h
  | atBound position op value ahead =>
    rw [readNode_operator_zero] at h
    cases h
    exact ⟨[], _, _, rfl, .start 0, .depthExceeded op value⟩
  | operator levels position op value ahead ih =>
    rw [readNode_operator_succ] at h
    obtain readl | ⟨⟨left, middle⟩, readl, h⟩ := outcome_bind_eq_error_iff.1 h
    · obtain ⟨front, rest, due, same, behind, refused⟩ := ih _ readl
      refine ⟨⟨.operator op, value⟩ :: front, rest, due, congrArg (_ :: ·) same,
        behind.left op value, ?_⟩
      rw [List.length_cons, Nat.add_comm _ 1, ← Nat.add_assoc]
      exact refused
    · obtain readr | ⟨⟨right, c⟩, -, h⟩ := outcome_bind_eq_error_iff.1 h
      · obtain ⟨front, rest, due, same, behind, refused⟩ := ih _ readr
        obtain ⟨fits, former, way, whole⟩ := passes_of_readNode_strict readl
        have onward : middle.position = position + 1 + former.length := way.position_eq
        have place : position + ((former ++ front).length + 1) =
            middle.position + front.length := by
          rw [onward, List.length_append]
          omega
        refine ⟨⟨.operator op, value⟩ :: (former ++ front), rest, due, ?_,
          .right op value fits whole behind, ?_⟩
        · rw [List.cons_append, List.append_assoc, ← same, ← way.ahead_eq]
        · rw [List.length_cons, place]
          exact refused
      · cases h

end OneTwo.Frame
