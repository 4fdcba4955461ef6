import OneTwo.Proofs.Frame.Resilient

/-!
How far a reading goes. A survey is a reading with the depths of the nodes at which it arrived, in
their order and also if it fails; without the depths it is the reading itself. The root is at depth
0 and an operand one deeper than its operator. Over any slots, no more nodes are arrived at than a
frame has slots, and none that is deeper than the bound.
-/

namespace OneTwo.Frame

structure Surveyed (α : Type) where
  reading : ExceptT FrameError Logged α
  depths : List Nat

namespace Surveyed

variable {α β : Type}

/-- Behind a failure nothing is arrived at. -/
instance : Monad Surveyed where
  pure a := ⟨pure a, []⟩
  bind x f :=
    ⟨x.reading >>= fun a => (f a).reading,
      x.depths ++
        match outcome x.reading with
        | .ok a => (f a).depths
        | .error _ => []⟩

@[simp] theorem pure_reading (a : α) : (pure a : Surveyed α).reading = pure a := rfl

@[simp] theorem pure_depths (a : α) : (pure a : Surveyed α).depths = [] := rfl

@[simp] theorem bind_reading (x : Surveyed α) (f : α → Surveyed β) :
    (x >>= f).reading = x.reading >>= fun a => (f a).reading := rfl

theorem bind_depths_of_ok {x : Surveyed α} {a : α} (f : α → Surveyed β)
    (h : outcome x.reading = .ok a) : (x >>= f).depths = x.depths ++ (f a).depths := by
  simp only [bind, h]

theorem bind_depths_of_error {x : Surveyed α} {error : FrameError} (f : α → Surveyed β)
    (h : outcome x.reading = .error error) : (x >>= f).depths = x.depths := by
  simp only [bind, h, List.append_nil]

theorem bind_depths_of_nil (x : Surveyed α) {f : α → Surveyed β} (h : ∀ a, (f a).depths = []) :
    (x >>= f).depths = x.depths := by
  cases result : outcome x.reading with
  | ok a => rw [bind_depths_of_ok f result, h, List.append_nil]
  | error error => exact bind_depths_of_error f result

end Surveyed

abbrev Surveyor := StateT Cursor Surveyed

namespace Surveyor

def plain {α : Type} (reader : Reader α) : Surveyor α :=
  fun c => ⟨reader.run c, []⟩

def arrive (depth : Nat) : Surveyor Unit :=
  fun c => ⟨pure ((), c), [depth]⟩

@[simp] theorem plain_run {α : Type} (reader : Reader α) (c : Cursor) :
    (plain reader).run c = ⟨reader.run c, []⟩ := rfl

end Surveyor

def surveyNode (mode : Mode) (bound levels depth : Nat) : Surveyor Expr := do
  Surveyor.arrive depth
  let position := (← get).position
  match ← Surveyor.plain Reader.next with
  | none => Surveyor.plain (throw (.unexpectedEnd position))
  | some ⟨.filler, _⟩ => Surveyor.plain (throw (.unexpectedFiller position))
  | some ⟨.literal, value⟩ =>
    let l ← Surveyor.plain (readLiteral mode position value)
    Surveyor.plain (readPadding mode (padding levels))
    return .literal l
  | some ⟨.operator op, _⟩ =>
    match levels with
    | 0 => Surveyor.plain (readAtBound mode bound position)
    | levels + 1 =>
      let left ← surveyNode mode bound levels (depth + 1)
      let right ← surveyNode mode bound levels (depth + 1)
      return .apply op left right

def surveyFrame (mode : Mode) (bound : Nat) : Surveyor Expr := do
  Surveyor.plain (checkBound bound)
  let e ← surveyNode mode bound bound 0
  Surveyor.plain (readEnd mode)
  return e

def survey (mode : Mode) (bound : Nat) (slots : List Slot) : Surveyed Expr :=
  (surveyFrame mode bound).run' (Cursor.ofList slots)

section Node

variable (mode : Mode) (bound levels depth position : Nat) (value : UInt8) (ahead : List Slot)

theorem depths_surveyNode_literal :
    ((surveyNode mode bound levels depth).run ⟨position, ⟨.literal, value⟩ :: ahead⟩).depths =
      [depth] := by
  let literal : Surveyor Expr := do
    let l ← Surveyor.plain (readLiteral mode position value)
    Surveyor.plain (readPadding mode (padding levels))
    return .literal l
  have none : (literal.run ⟨position + 1, ahead⟩).depths = [] := by
    refine Surveyed.bind_depths_of_nil _ fun a => ?_
    exact Surveyed.bind_depths_of_nil _ fun b => rfl
  rw [surveyNode]
  change [depth] ++ (literal.run ⟨position + 1, ahead⟩).depths = [depth]
  rw [none, List.append_nil]

theorem surveyNode_operator_succ (op : Operator) :
    (surveyNode mode bound (levels + 1) depth).run ⟨position, ⟨.operator op, value⟩ :: ahead⟩ = do
      (⟨pure (), [depth]⟩ : Surveyed Unit)
      let (left, c) ← (surveyNode mode bound levels (depth + 1)).run ⟨position + 1, ahead⟩
      let (right, c) ← (surveyNode mode bound levels (depth + 1)).run c
      return (.apply op left right, c) := by
  rw [surveyNode]
  rfl

theorem reading_surveyNode (c : Cursor) :
    ((surveyNode mode bound levels depth).run c).reading = (readNode mode bound levels).run c := by
  induction levels, c using node_induction generalizing depth with
  | nil levels position => rw [surveyNode, readNode]; rfl
  | filler levels position value ahead => rw [surveyNode, readNode]; rfl
  | literal levels position value ahead => rw [surveyNode, readNode]; rfl
  | atBound position op value ahead => rw [surveyNode, readNode]; rfl
  | operator levels position op value ahead ih =>
    rw [surveyNode_operator_succ, readNode_operator_succ]
    simp [ih]

end Node

/-- Depths of nodes, the topmost one as given, that have room at so many levels. -/
structure Roomy (levels depth : Nat) (depths : List Nat) : Prop where
  length_le : depths.length ≤ size levels
  le_of_mem : ∀ d ∈ depths, d ≤ depth + levels

namespace Roomy

variable {levels depth : Nat} {lefts rights : List Nat}

theorem nil (levels depth : Nat) : Roomy levels depth [] :=
  ⟨Nat.zero_le _, by simp⟩

theorem singleton (levels depth : Nat) : Roomy levels depth [depth] :=
  ⟨size_pos levels, by simp⟩

theorem operator (supported : levels < maxBound) (former : Roomy levels (depth + 1) lefts)
    (latter : Roomy levels (depth + 1) rights) :
    Roomy (levels + 1) depth (depth :: (lefts ++ rights)) where
  length_le := by
    have first := former.length_le
    have second := latter.length_le
    rw [size_succ supported, List.length_cons, List.length_append]
    omega
  le_of_mem := by
    intro d among
    rcases List.mem_cons.1 among with rfl | below
    · exact Nat.le_add_right d _
    · have deeper : d ≤ depth + 1 + levels := by
        rcases List.mem_append.1 below with left | right
        · exact former.le_of_mem d left
        · exact latter.le_of_mem d right
      omega

end Roomy

theorem roomy_surveyNode (mode : Mode) (bound depth : Nat) {levels : Nat}
    (supported : levels ≤ maxBound) (c : Cursor) :
    Roomy levels depth ((surveyNode mode bound levels depth).run c).depths := by
  induction levels, c using node_induction generalizing depth with
  | nil levels position =>
    rw [surveyNode]
    exact .singleton levels depth
  | filler levels position value ahead =>
    rw [surveyNode]
    exact .singleton levels depth
  | literal levels position value ahead =>
    rw [depths_surveyNode_literal]
    exact .singleton levels depth
  | atBound position op value ahead =>
    rw [surveyNode]
    exact .singleton 0 depth
  | operator levels position op value ahead ih =>
    have below : levels ≤ maxBound := Nat.le_of_succ_le supported
    have lefts := ih ⟨position + 1, ahead⟩ (depth + 1) below
    rw [surveyNode_operator_succ, Surveyed.bind_depths_of_ok _ rfl]
    cases read : outcome ((surveyNode mode bound levels (depth + 1)).run
        ⟨position + 1, ahead⟩).reading with
    -- The right operand is not arrived at, but the depths of the left one still count.
    | error error =>
      have whole := Roomy.operator supported lefts (.nil levels (depth + 1))
      rw [List.append_nil] at whole
      rw [Surveyed.bind_depths_of_error _ read]
      exact whole
    | ok a =>
      have whole := Roomy.operator supported lefts (ih a.2 (depth + 1) below)
      rw [Surveyed.bind_depths_of_ok _ read, Surveyed.bind_depths_of_nil _ fun b => rfl]
      exact whole

theorem reading_surveyFrame (mode : Mode) (bound : Nat) (c : Cursor) :
    ((surveyFrame mode bound).run c).reading = (readFrame mode bound).run c := by
  simp [surveyFrame, readFrame, StateT.run_bind, reading_surveyNode]

theorem run_reading_survey (mode : Mode) (bound : Nat) (slots : List Slot) :
    (survey mode bound slots).reading.run = decode mode bound slots := by
  have kept : (survey mode bound slots).reading =
      Prod.fst <$> ((surveyFrame mode bound).run (Cursor.ofList slots)).reading := by
    rw [map_eq_pure_bind]
    rfl
  rw [kept, reading_surveyFrame]
  rfl

theorem depths_survey (mode : Mode) {bound : Nat} (supported : bound ≤ maxBound)
    (slots : List Slot) :
    (survey mode bound slots).depths =
      ((surveyNode mode bound bound 0).run (Cursor.ofList slots)).depths := by
  have alone : (survey mode bound slots).depths =
      ((surveyFrame mode bound).run (Cursor.ofList slots)).depths :=
    Surveyed.bind_depths_of_nil _ fun a => rfl
  have passed : outcome ((Surveyor.plain (checkBound bound)).run (Cursor.ofList slots)).reading =
      .ok ((), Cursor.ofList slots) := by
    rw [Surveyor.plain_run, liftM_checkBound supported]
    rfl
  rw [alone, surveyFrame, StateT.run_bind, Surveyed.bind_depths_of_ok _ passed]
  exact Surveyed.bind_depths_of_nil _ fun a => Surveyed.bind_depths_of_nil _ fun b => rfl

theorem depths_survey_of_unsupported (mode : Mode) {bound : Nat} (unsupported : maxBound < bound)
    (slots : List Slot) : (survey mode bound slots).depths = [] := by
  have alone : (survey mode bound slots).depths =
      ((surveyFrame mode bound).run (Cursor.ofList slots)).depths :=
    Surveyed.bind_depths_of_nil _ fun a => rfl
  have failed : outcome ((Surveyor.plain (checkBound bound)).run (Cursor.ofList slots)).reading =
      .error (.boundTooLarge bound maxBound) := by
    rw [Surveyor.plain_run, checkBound_of_lt unsupported]
    rfl
  rw [alone, surveyFrame, StateT.run_bind, Surveyed.bind_depths_of_error _ failed]
  rfl

theorem roomy_survey (mode : Mode) (bound : Nat) (slots : List Slot) :
    Roomy bound 0 (survey mode bound slots).depths := by
  by_cases supported : bound ≤ maxBound
  · rw [depths_survey mode supported]
    exact roomy_surveyNode mode bound 0 supported (Cursor.ofList slots)
  · rw [depths_survey_of_unsupported mode (Nat.not_le.1 supported)]
    exact .nil bound 0

end OneTwo.Frame
