import Mathlib.Algebra.GroupWithZero.Nat
import OneTwo.Proofs.Frame.Cursor
import OneTwo.Proofs.Word

/-!
Whole runs of a cursor: looking at the next slot, taking it and skipping some, in any order. Each
action leaves the cursor where one skip of the number of slots that it asks for would leave it, so a
run does what a single skip of their sum does. The place is thus that sum, or the end; it never goes
back, and behind it and ahead are always all the slots. What taking gives are the slots at the
places that it passes, each passed once and in order.

The same holds of a cursor that keeps its place in a word of 64 bits, whatever the counts are. It
adds with saturation where the count may be any, and with a check where it passes a slot; neither
that check nor the one on what remains ever fails.
-/

namespace OneTwo

namespace Cursor

inductive Action where
  | peek
  | next
  | skip (count : UInt64)
  deriving DecidableEq

def Action.requested : Action → Nat
  | peek => 0
  | next => 1
  | skip count => count.toNat

def act (c : Cursor) : Action → Option Slot × Cursor
  | .peek => (c.peek?, c)
  | .next => c.next
  | .skip count => (none, c.skip count.toNat)

theorem act_snd (c : Cursor) (action : Action) : (c.act action).2 = c.skip action.requested := by
  cases action with
  | peek => exact c.skip_zero.symm
  | next => exact c.next_snd
  | skip count => rfl

def run (c : Cursor) : List Action → List (Action × Option Slot) × Cursor
  | [] => ([], c)
  | action :: actions =>
    let (given, behind) := c.act action
    let (gave, last) := behind.run actions
    ((action, given) :: gave, last)

theorem run_snd (c : Cursor) (actions : List Action) :
    (c.run actions).2 = c.skip (actions.map Action.requested).sum := by
  induction actions generalizing c with
  | nil => exact c.skip_zero.symm
  | cons action actions ih =>
    have rest := ih (c.act action).2
    rw [act_snd, skip_skip] at rest
    rw [List.map_cons, List.sum_cons, ← rest, ← act_snd]
    rfl

/-- A place in the given slots: all that are not behind it are ahead. -/
structure In (slots : List Slot) (c : Cursor) : Prop where
  ahead_eq : c.ahead = slots.drop c.position
  position_le : c.position ≤ slots.length

section In

variable {slots : List Slot} {c : Cursor}

theorem in_ofList (slots : List Slot) : (ofList slots).In slots :=
  ⟨rfl, Nat.zero_le _⟩

theorem In.position_add_remaining (h : c.In slots) : c.position + c.remaining = slots.length := by
  rw [remaining, h.ahead_eq, List.length_drop, Nat.add_sub_cancel' h.position_le]

theorem In.peek?_eq (h : c.In slots) : c.peek? = slots[c.position]? := by
  rw [peek?, h.ahead_eq, List.head?_drop]

theorem In.skip (h : c.In slots) (count : Nat) : (c.skip count).In slots := by
  have total := h.position_add_remaining
  have kept := c.skip_position_add_remaining count
  constructor
  · rw [Cursor.skip, available_eq]
    obtain enough | short := Nat.le_total count c.remaining
    · rw [Nat.min_eq_left enough, h.ahead_eq, List.drop_drop]
    · -- Behind the last slot nothing is ahead, however much further the count goes.
      have all : slots.length ≤ c.position + c.remaining := Nat.le_of_eq total.symm
      rw [Nat.min_eq_right short, List.drop_eq_nil_of_le short, List.drop_eq_nil_of_le all]
  · omega

theorem In.act (h : c.In slots) (action : Action) : (c.act action).2.In slots := by
  rw [act_snd]
  exact h.skip action.requested

theorem In.run (h : c.In slots) (actions : List Action) : (c.run actions).2.In slots := by
  rw [run_snd]
  exact h.skip (actions.map Action.requested).sum

end In

section Taken

/-- The places that an action passes to give its slot. -/
def passing (c : Cursor) : Action → List Nat
  | .next => List.range' c.position (c.next.2.position - c.position)
  | .peek | .skip _ => []

def passed (c : Cursor) : List Action → List Nat
  | [] => []
  | action :: actions => c.passing action ++ (c.act action).2.passed actions

def taken (gave : List (Action × Option Slot)) : List Slot :=
  gave.filterMap fun
    | (.next, given) => given
    | _ => none

theorem taken_next_cons (given : Option Slot) (gave : List (Action × Option Slot)) :
    taken ((.next, given) :: gave) = given.toList ++ taken gave := by
  cases given <;> rfl

variable {slots : List Slot} {c : Cursor} {place : Nat}

theorem position_le_act (c : Cursor) (action : Action) :
    c.position ≤ (c.act action).2.position := by
  rw [act_snd]
  exact Nat.le_add_right _ _

theorem position_le_run (c : Cursor) (actions : List Action) :
    c.position ≤ (c.run actions).2.position := by
  rw [run_snd]
  exact Nat.le_add_right _ _

theorem mem_passing_next_iff :
    place ∈ c.passing .next ↔ c.position ≤ place ∧ place < c.next.2.position := by
  have forward : c.position ≤ c.next.2.position := c.position_le_act .next
  rw [passing, List.mem_range'_1]
  omega

theorem mem_passed_iff {actions : List Action} :
    place ∈ c.passed actions ↔ ∃ front back, actions = front ++ .next :: back ∧
      (c.run front).2.position ≤ place ∧ place < (c.run (front ++ [.next])).2.position := by
  induction actions generalizing c with
  | nil => simp [passed]
  | cons action actions ih =>
    rw [passed, List.mem_append, ih]
    constructor
    · rintro (here | ⟨front, back, rfl, later⟩)
      · cases action with
        | next => exact ⟨[], actions, rfl, mem_passing_next_iff.1 here⟩
        | peek | skip count => cases here
      · exact ⟨action :: front, back, rfl, later⟩
    · rintro ⟨front, back, split, between⟩
      cases front with
      | nil =>
        obtain ⟨rfl, -⟩ := List.cons.inj split
        exact .inl (mem_passing_next_iff.2 between)
      | cons first front =>
        obtain ⟨rfl, rfl⟩ := List.cons.inj split
        exact .inr ⟨front, back, rfl, between⟩

theorem position_le_of_mem_passed {actions : List Action} (h : place ∈ c.passed actions) :
    c.position ≤ place := by
  obtain ⟨front, -, -, behind, -⟩ := mem_passed_iff.1 h
  exact Nat.le_trans (c.position_le_run front) behind

theorem pairwise_passed (c : Cursor) (actions : List Action) :
    (c.passed actions).Pairwise (· < ·) := by
  induction actions generalizing c with
  | nil => exact .nil
  | cons action actions ih =>
    rw [passed, List.pairwise_append]
    refine ⟨?_, ih _, ?_⟩
    · cases action with
      | next => exact List.pairwise_lt_range'
      | peek | skip count => exact .nil
    · intro here passing later passed
      have onward : (c.act action).2.position ≤ later := position_le_of_mem_passed passed
      cases action with
      | next => exact Nat.lt_of_lt_of_le (mem_passing_next_iff.1 passing).2 onward
      | peek | skip count => cases passing

theorem In.next_fst (h : c.In slots) :
    c.next.1.toList.map some = (c.passing .next).map fun place => slots[place]? := by
  have there := h.peek?_eq
  obtain ⟨position, _ | ⟨s, ahead⟩⟩ := c
  · simp [next, passing]
  · simp only [next, passing, Nat.add_sub_cancel_left, List.range'_one, List.map_singleton]
    rw [← there]
    rfl

theorem In.taken_run (h : c.In slots) (actions : List Action) :
    (taken (c.run actions).1).map some = (c.passed actions).map fun place => slots[place]? := by
  induction actions generalizing c with
  | nil => rfl
  | cons action actions ih =>
    have later := ih (h.act action)
    rw [passed, List.map_append, ← later]
    cases action with
    | next =>
      rw [← h.next_fst, ← List.map_append, ← taken_next_cons]
      rfl
    | peek | skip count => rfl

end Taken

end Cursor

/-- A cursor that keeps the number of the next slot as a word. -/
structure WordCursor where
  slots : List Slot
  position : UInt64

namespace WordCursor

def start (slots : List Slot) : WordCursor :=
  ⟨slots, 0⟩

def peek? (w : WordCursor) : Option Slot :=
  w.slots[w.position.toNat]?

def remaining? (w : WordCursor) : Option UInt64 :=
  Word.sub? (.ofNat w.slots.length) w.position

def next? (w : WordCursor) : Option (Option Slot × WordCursor) :=
  match w.peek? with
  | none => some (none, w)
  | some s => do
    let position ← Word.add? w.position 1
    return (some s, { w with position })

def skip (w : WordCursor) (count : UInt64) : WordCursor :=
  { w with position := min (Word.saturatingAdd w.position count) (.ofNat w.slots.length) }

/-- As for cursors; nothing if a checked operation has no result. -/
def act? (w : WordCursor) : Cursor.Action → Option (Option Slot × WordCursor)
  | .peek => some (w.peek?, w)
  | .next => w.next?
  | .skip count => some (none, w.skip count)

def run? (w : WordCursor) :
    List Cursor.Action → Option (List (Cursor.Action × Option Slot) × WordCursor)
  | [] => some ([], w)
  | action :: actions => do
    let (given, behind) ← w.act? action
    let (gave, last) ← behind.run? actions
    return ((action, given) :: gave, last)

end WordCursor

namespace Cursor

def inWords (slots : List Slot) (c : Cursor) : WordCursor :=
  ⟨slots, .ofNat c.position⟩

section Words

variable {slots : List Slot} {c : Cursor}

theorem In.toNat_position (h : c.In slots) (addressable : slots.length < UInt64.size) :
    (c.inWords slots).position.toNat = c.position :=
  UInt64.toNat_ofNat_of_lt' (Nat.lt_of_le_of_lt h.position_le addressable)

theorem eq_inWords {position : UInt64} (same : position.toNat = c.position) :
    WordCursor.mk slots position = c.inWords slots := by
  rw [inWords, ← same, UInt64.ofNat_toNat]

theorem In.remaining?_inWords (h : c.In slots) (addressable : slots.length < UInt64.size) :
    (c.inWords slots).remaining? = some (.ofNat c.remaining) := by
  have position := h.toNat_position addressable
  have length : (UInt64.ofNat slots.length).toNat = slots.length :=
    UInt64.toNat_ofNat_of_lt' addressable
  have inside : (c.inWords slots).position.toNat ≤ (UInt64.ofNat slots.length).toNat := by
    rw [position, length]
    exact h.position_le
  have left : slots.length - c.position = c.remaining := by
    rw [← h.position_add_remaining, Nat.add_sub_cancel_left]
  change Word.sub? (.ofNat slots.length) (c.inWords slots).position = _
  rw [Word.sub?_of_le inside, position, length, left]

theorem In.skip_inWords (h : c.In slots) (addressable : slots.length < UInt64.size)
    (count : UInt64) : (c.inWords slots).skip count = (c.skip count.toNat).inWords slots := by
  have total := h.position_add_remaining
  have position := h.toNat_position addressable
  have length : (UInt64.ofNat slots.length).toNat = slots.length :=
    UInt64.toNat_ofNat_of_lt' addressable
  -- The sum may be cut down to the largest word, but the slots end before that.
  have largest : slots.length ≤ Frame.maxWord := Nat.le_sub_one_of_lt addressable
  have reached : min (min (c.position + count.toNat) Frame.maxWord) slots.length =
      c.position + min count.toNat c.remaining := by omega
  refine eq_inWords ?_
  rw [Word.toNat_min, Word.toNat_saturatingAdd, position, Cursor.skip, available_eq, ← reached]
  exact congrArg (min _) length

theorem In.act?_inWords (h : c.In slots) (addressable : slots.length < UInt64.size)
    (action : Action) :
    (c.inWords slots).act? action = some ((c.act action).1, (c.act action).2.inWords slots) := by
  have position := h.toNat_position addressable
  have peeked : (c.inWords slots).peek? = c.peek? := by
    rw [WordCursor.peek?, position, h.peek?_eq]
    rfl
  cases action with
  | peek => rw [WordCursor.act?, peeked]; rfl
  | next =>
    rw [WordCursor.act?, WordCursor.next?, peeked]
    obtain ⟨place, _ | ⟨s, ahead⟩⟩ := c
    · rfl
    · -- A slot is ahead, so the place behind it is still within the slots.
      have inside : place + 1 ≤ slots.length := (h.act .next).position_le
      have onward : Word.add? (.ofNat place) 1 = some (.ofNat (place + 1)) := by
        have same : (UInt64.ofNat place).toNat = place := position
        rw [Word.add?, same]
        exact Word.ofNat?_of_lt (Nat.lt_of_le_of_lt inside addressable)
      simp only [peek?, List.head?_cons, inWords, onward]
      rfl
  | skip count => rw [WordCursor.act?, h.skip_inWords addressable]; rfl

theorem In.run?_inWords (h : c.In slots) (addressable : slots.length < UInt64.size)
    (actions : List Action) :
    (c.inWords slots).run? actions = some ((c.run actions).1, (c.run actions).2.inWords slots) := by
  induction actions generalizing c with
  | nil => rfl
  | cons action actions ih =>
    rw [WordCursor.run?, h.act?_inWords addressable, Option.bind_eq_bind, Option.bind_some]
    dsimp only
    rw [ih (h.act action)]
    rfl

end Words

/-- The actions may be any, so what is said of the place behind them is true of every place on the
way. -/
theorem run_forward (slots : List Slot) (addressable : slots.length < UInt64.size)
    (actions : List Action) :
    let gave := ((ofList slots).run actions).1
    let last := ((ofList slots).run actions).2
    (∃ w left, (WordCursor.start slots).run? actions = some (gave, w) ∧
      w.position.toNat = last.position ∧ w.remaining? = some left ∧
      left.toNat = last.remaining) ∧
    (∀ front, front <+: actions → ((ofList slots).run front).2.position ≤ last.position) ∧
    last.position ≤ slots.length ∧
    last.position + last.remaining = slots.length ∧
    last.position = min slots.length (actions.map Action.requested).sum ∧
    ∃ places : List Nat, places.Pairwise (· < ·) ∧
      (taken gave).map some = places.map (fun place => slots[place]?) ∧
      ∀ place, place ∈ places ↔ ∃ front back, actions = front ++ .next :: back ∧
        ((ofList slots).run front).2.position ≤ place ∧
        place < ((ofList slots).run (front ++ [.next])).2.position := by
  intro gave last
  have start := in_ofList slots
  have inside : last.In slots := start.run actions
  have total := inside.position_add_remaining
  have left : last.remaining < UInt64.size := by omega
  refine ⟨⟨last.inWords slots, .ofNat last.remaining, start.run?_inWords addressable actions,
    inside.toNat_position addressable, inside.remaining?_inWords addressable,
    UInt64.toNat_ofNat_of_lt' left⟩, ?_, inside.position_le, total, ?_,
    (ofList slots).passed actions, pairwise_passed _ actions, start.taken_run actions,
    fun place => mem_passed_iff⟩
  · rintro front ⟨back, rfl⟩
    have onward : last = (((ofList slots).run front).2.run back).2 := by
      simp only [last, run_snd, List.map_append, List.sum_append, skip_skip]
    rw [onward]
    exact position_le_run _ back
  · have reached : last = (ofList slots).skip (actions.map Action.requested).sum :=
      run_snd _ actions
    rw [reached, skip, available_eq, Nat.min_comm]
    exact Nat.zero_add _

theorem run_forward_past_largest_word :
    let slots : List Slot := [.literal 1, .filler, .literal 2, .filler]
    let actions : List Action := [.next, .skip 1, .peek, .next, .skip 18446744073709551615,
      .skip 18446744073709551615, .next]
    let front : List Action := [.next, .skip 1]
    slots.length < UInt64.size ∧ front <+: actions ∧
      ((ofList slots).run front).2.position = 2 ∧ 2 ≤ ((ofList slots).run actions).2.position ∧
      ((ofList slots).run actions).2.position = 4 ∧
      (∃ w, (WordCursor.start slots).run? actions = some (((ofList slots).run actions).1, w) ∧
        w.position.toNat = 4 ∧ w.remaining? = some 0) ∧
      taken ((ofList slots).run actions).1 = [.literal 1, .literal 2] := by
  intro slots actions front
  have addressable : slots.length < UInt64.size := by decide
  have part : front <+: actions := ⟨_, rfl⟩
  have two : ((ofList slots).run front).2.position = 2 := rfl
  obtain ⟨⟨w, left, words, position, counted, count⟩, forward, -, total, reached, -⟩ :=
    run_forward slots addressable actions
  have four : ((ofList slots).run actions).2.position = 4 := reached
  have none : left = 0 := by
    have length : slots.length = 4 := rfl
    rw [four, length] at total
    rw [← UInt64.toNat_inj, count]
    exact Nat.add_left_cancel total
  rw [four] at position
  rw [none] at counted
  exact ⟨addressable, part, two, two ▸ forward front part, four, ⟨w, words, position, counted⟩, rfl⟩

end Cursor

end OneTwo
