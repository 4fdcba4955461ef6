import Mathlib.Data.List.TakeWhile
import OneTwo.Frame.Decode
import OneTwo.Proofs.Frame.Cursor

/-!
What a reader does from a cursor. A reader of nodes is opened here once, at each kind of slot that a
cursor can have ahead, and what is said of readers elsewhere is said of the parts that these
equations show. `outcome` is what a reading gives, apart from its remarks.
-/

namespace OneTwo.Frame

variable {α β : Type}

/-- What a reading gives, without its remarks. -/
def outcome (x : ExceptT FrameError Logged α) : Except FrameError α :=
  x.run.value

@[simp] theorem outcome_pure (a : α) : outcome (pure a) = .ok a := rfl

@[simp] theorem outcome_throw (error : FrameError) :
    outcome (throw error : ExceptT FrameError Logged α) = .error error := rfl

theorem outcome_bind (x : ExceptT FrameError Logged α) (f : α → ExceptT FrameError Logged β) :
    outcome (x >>= f) = outcome x >>= fun a => outcome (f a) := by
  unfold outcome
  rw [ExceptT.run_bind, Logged.bind_value]
  cases x.run.value <;> rfl

theorem outcome_bind_eq_ok_iff {x : ExceptT FrameError Logged α}
    {f : α → ExceptT FrameError Logged β} {b : β} :
    outcome (x >>= f) = .ok b ↔ ∃ a, outcome x = .ok a ∧ outcome (f a) = .ok b := by
  rw [outcome_bind]
  cases outcome x <;> simp [bind, Except.bind]

theorem outcome_bind_eq_error_iff {x : ExceptT FrameError Logged α}
    {f : α → ExceptT FrameError Logged β} {error : FrameError} :
    outcome (x >>= f) = .error error ↔
      outcome x = .error error ∨ ∃ a, outcome x = .ok a ∧ outcome (f a) = .error error := by
  rw [outcome_bind]
  cases outcome x <;> simp [bind, Except.bind]

section Node

variable (mode : Mode) (bound levels position : Nat) (value : UInt8) (ahead : List Slot)

theorem readNode_nil :
    (readNode mode bound levels).run ⟨position, []⟩ = throw (.unexpectedEnd position) := by
  rw [readNode]
  rfl

theorem readNode_filler :
    (readNode mode bound levels).run ⟨position, ⟨.filler, value⟩ :: ahead⟩ =
      throw (.unexpectedFiller position) := by
  rw [readNode]
  rfl

theorem readNode_literal :
    (readNode mode bound levels).run ⟨position, ⟨.literal, value⟩ :: ahead⟩ = do
      let (l, c) ← (readLiteral mode position value).run ⟨position + 1, ahead⟩
      let (_, c) ← (readPadding mode (padding levels)).run c
      return (.literal l, c) := by
  rw [readNode]
  rfl

theorem readNode_operator_zero (op : Operator) :
    (readNode mode bound 0).run ⟨position, ⟨.operator op, value⟩ :: ahead⟩ =
      (readAtBound mode bound position).run ⟨position + 1, ahead⟩ := by
  rw [readNode]
  rfl

theorem readNode_operator_succ (op : Operator) :
    (readNode mode bound (levels + 1)).run ⟨position, ⟨.operator op, value⟩ :: ahead⟩ = do
      let (left, c) ← (readNode mode bound levels).run ⟨position + 1, ahead⟩
      let (right, c) ← (readNode mode bound levels).run c
      return (.apply op left right, c) := by
  rw [readNode]
  rfl

end Node

/-- The cases of `readNode`. The operands of an operator are read a level below it, from wherever
the reader has come to, so the hypothesis there is for every cursor. -/
@[elab_as_elim]
theorem node_induction {motive : Nat → Cursor → Prop}
    (nil : ∀ levels position, motive levels ⟨position, []⟩)
    (filler : ∀ levels position value ahead,
      motive levels ⟨position, ⟨.filler, value⟩ :: ahead⟩)
    (literal : ∀ levels position value ahead,
      motive levels ⟨position, ⟨.literal, value⟩ :: ahead⟩)
    (atBound : ∀ position op value ahead,
      motive 0 ⟨position, ⟨.operator op, value⟩ :: ahead⟩)
    (operator : ∀ levels position op value ahead, (∀ c, motive levels c) →
      motive (levels + 1) ⟨position, ⟨.operator op, value⟩ :: ahead⟩)
    (levels : Nat) (c : Cursor) : motive levels c := by
  induction levels generalizing c with
  | zero =>
    obtain ⟨position, _ | ⟨⟨_ | op | _, value⟩, ahead⟩⟩ := c
    · exact nil 0 position
    · exact literal 0 position value ahead
    · exact atBound position op value ahead
    · exact filler 0 position value ahead
  | succ levels ih =>
    obtain ⟨position, _ | ⟨⟨_ | op | _, value⟩, ahead⟩⟩ := c
    · exact nil (levels + 1) position
    · exact literal (levels + 1) position value ahead
    · exact operator levels position op value ahead ih
    · exact filler (levels + 1) position value ahead

/-- The cases of a reading that comes to an expression: its operands were read one after the other,
the second from where the first one left off. -/
@[elab_as_elim]
theorem read_induction {mode : Mode} {bound : Nat}
    {motive : (levels : Nat) → (c : Cursor) → (e : Expr) → (d : Cursor) →
      outcome ((readNode mode bound levels).run c) = .ok (e, d) → Prop}
    (literal : ∀ levels position value ahead e d read,
      motive levels ⟨position, ⟨.literal, value⟩ :: ahead⟩ e d read)
    (atBound : ∀ position op value ahead e d read,
      motive 0 ⟨position, ⟨.operator op, value⟩ :: ahead⟩ e d read)
    (operator : ∀ levels position op value ahead left middle right last readl readr read,
      motive levels ⟨position + 1, ahead⟩ left middle readl →
      motive levels middle right last readr →
      motive (levels + 1) ⟨position, ⟨.operator op, value⟩ :: ahead⟩ (.apply op left right) last
        read)
    {levels : Nat} {c : Cursor} {e : Expr} {d : Cursor}
    (read : outcome ((readNode mode bound levels).run c) = .ok (e, d)) :
    motive levels c e d read := by
  induction levels, c using node_induction generalizing e d with
  | nil levels position =>
    have failed := read
    rw [readNode_nil, outcome_throw] at failed
    cases failed
  | filler levels position value ahead =>
    have failed := read
    rw [readNode_filler, outcome_throw] at failed
    cases failed
  | literal levels position value ahead => exact literal levels position value ahead e d read
  | atBound position op value ahead => exact atBound position op value ahead e d read
  | operator levels position op value ahead ih =>
    have parts := read
    rw [readNode_operator_succ] at parts
    obtain ⟨⟨left, middle⟩, readl, parts⟩ := outcome_bind_eq_ok_iff.1 parts
    obtain ⟨⟨right, last⟩, readr, parts⟩ := outcome_bind_eq_ok_iff.1 parts
    cases parts
    exact operator levels position op value ahead left middle right d readl readr read
      (ih _ readl) (ih _ readr)

theorem readLiteral_value (mode : Mode) (position : Nat) (l : Literal) :
    readLiteral mode position (UInt8.ofNat l.value) = pure l := by
  cases l <;> rfl

theorem readLiteral_strict_eq_ok {position : Nat} {value : UInt8} {c d : Cursor} {l : Literal}
    (h : outcome ((readLiteral .strict position value).run c) = .ok (l, d)) :
    value = UInt8.ofNat l.value ∧ d = c := by
  unfold readLiteral at h
  split at h
  · rename_i known
    cases h
    have same := Literal.ofInt?_eq_some_iff.1 known
    rw [← Int.natCast_inj.1 same, UInt8.ofNat_toNat]
    exact ⟨rfl, rfl⟩
  · cases h
  · rename_i resilient
    cases resilient

theorem readLiteral_strict_eq_error {position : Nat} {value : UInt8} {c : Cursor}
    {error : FrameError}
    (h : outcome ((readLiteral .strict position value).run c) = .error error) :
    Literal.ofInt? value.toNat = none ∧ error = .invalidLiteral position value := by
  unfold readLiteral at h
  split at h
  · cases h
  · rename_i unknown _
    cases h
    exact ⟨unknown, rfl⟩
  · rename_i resilient
    cases resilient

theorem readPadding_strict (expected : Nat) (c : Cursor) :
    (readPadding .strict expected).run c =
      if ((c.ahead.take expected).takeWhile Slot.isFiller).length < expected then
        throw (.malformedPadding
          (c.position + ((c.ahead.take expected).takeWhile Slot.isFiller).length))
      else pure ((), c.skip expected) := by
  simp only [readPadding, StateT.run_bind, StateT.run_get, pure_bind]
  split <;> rfl

theorem readPadding_resilient (expected : Nat) (c : Cursor) :
    (readPadding .resilient expected).run c = do
      if c.available expected < expected then
        Logged.log (.paddingTruncated c.position (c.available expected) expected)
      return ((), c.skip expected) := by
  simp only [readPadding, StateT.run_bind, StateT.run_get, pure_bind]
  split <;> rfl

theorem readPadding_of_passes (mode : Mode) {c d : Cursor} {front : List Slot}
    (h : c.Passes front d) (fillers : ∀ s ∈ front, s.isFiller = true) :
    (readPadding mode front.length).run c = pure ((), d) := by
  cases mode with
  | strict =>
    have all : front.takeWhile Slot.isFiller = front := List.takeWhile_eq_self_iff.2 fillers
    rw [readPadding_strict, h.take_eq, all, h.skip_eq, if_neg (Nat.lt_irrefl _)]
  | resilient =>
    have present : c.available front.length = front.length := congrArg List.length h.take_eq
    rw [readPadding_resilient, present, h.skip_eq, if_neg (Nat.lt_irrefl _)]

theorem passes_of_readPadding_strict {expected : Nat} {c d : Cursor} {u : Unit}
    (h : outcome ((readPadding .strict expected).run c) = .ok (u, d)) :
    ∃ front, c.Passes front d ∧ front.length = expected ∧ ∀ s ∈ front, s.isFiller = true := by
  rw [readPadding_strict] at h
  split at h
  · cases h
  · rename_i enough
    cases h
    have short := List.length_take_le expected c.ahead
    have whole : (c.ahead.take expected).takeWhile Slot.isFiller = c.ahead.take expected :=
      (List.takeWhile_prefix _).eq_of_length_le (by omega)
    refine ⟨_, c.passes_skip expected, ?_, List.takeWhile_eq_self_iff.1 whole⟩
    rw [whole] at enough
    omega

theorem readEnd_nil (mode : Mode) (position : Nat) :
    (readEnd mode).run ⟨position, []⟩ = pure ((), ⟨position, []⟩) := rfl

theorem readEnd_strict_cons (position : Nat) (s : Slot) (ahead : List Slot) :
    (readEnd .strict).run ⟨position, s :: ahead⟩ = throw (.trailingSlots (ahead.length + 1)) := rfl

theorem liftM_checkBound {bound : Nat} (supported : bound ≤ maxBound) :
    (liftM (checkBound bound) : Reader Unit) = pure () := by
  rw [checkBound_of_le supported]
  rfl

theorem decode_of_supported (mode : Mode) {bound : Nat} (supported : bound ≤ maxBound)
    (slots : List Slot) :
    decode mode bound slots = ExceptT.run do
      let (e, c) ← (readNode mode bound bound).run (Cursor.ofList slots)
      let _ ← (readEnd mode).run c
      return e := by
  simp [decode, readFrame, liftM_checkBound supported]

theorem decode_of_unsupported (mode : Mode) {bound : Nat} (unsupported : maxBound < bound)
    (slots : List Slot) :
    decode mode bound slots = pure (.error (.boundTooLarge bound maxBound)) := by
  rw [decode, readFrame, checkBound_of_lt unsupported]
  rfl

end OneTwo.Frame
