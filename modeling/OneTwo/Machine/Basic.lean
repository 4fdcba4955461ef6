import OneTwo.Program

/-!
The stack machine over any values and any operations, which may keep a state of their own. A literal
pushes; an operator takes the two topmost values, the lower one first, and pushes one. A run ends
after the last token or in front of the first operator that finds fewer than two values; the machine
is then as the earlier tokens left it.
-/

namespace OneTwo

/-- What the machine does at a token, with the state before and after it. -/
structure Operations (σ α : Type) where
  literal : Literal → σ → α × σ
  apply : Operator → (lower upper : α) → σ → α × σ

inductive MachineError where
  | underflow (position : Nat)
  | noValue
  | surplus (count : Nat)
  deriving DecidableEq

def MachineError.message : MachineError → String
  | underflow position => s!"stack underflow at token {position}"
  | noValue => "program ended with empty stack"
  | surplus count => s!"program ended with {count} values on stack (expected 1)"

/-- The stack has its top in front. -/
structure Machine (σ α : Type) where
  position : Nat
  stack : List α
  state : σ

namespace Machine

variable {σ α : Type}

def start (state : σ) : Machine σ α :=
  ⟨0, [], state⟩

def next (m : Machine σ α) (stack : List α) (result : α × σ) : Machine σ α :=
  ⟨m.position + 1, result.1 :: stack, result.2⟩

def step? (ops : Operations σ α) (m : Machine σ α) : Token → Option (Machine σ α)
  | .literal l => some (m.next m.stack (ops.literal l m.state))
  | .operator op =>
    match m.stack with
    | upper :: lower :: rest => some (m.next rest (ops.apply op lower upper m.state))
    | _ => none

theorem position_of_step? {ops : Operations σ α} {m n : Machine σ α} {t : Token}
    (h : m.step? ops t = some n) : n.position = m.position + 1 := by
  cases t with
  | literal l => cases h; rfl
  | operator op =>
    simp only [step?] at h
    split at h <;> cases h
    rfl

/-- Runs as many of the tokens as it can, and gives the tokens that are left with the machine. -/
def advance (ops : Operations σ α) : Machine σ α → List Token → Machine σ α × List Token
  | m, [] => (m, [])
  | m, t :: rest =>
    match m.step? ops t with
    | some n => advance ops n rest
    | none => (m, t :: rest)

theorem advance_append (ops : Operations σ α) (m : Machine σ α) (front back : List Token) :
    m.advance ops (front ++ back) =
      match m.advance ops front with
      | (n, []) => n.advance ops back
      | (n, rest) => (n, rest ++ back) := by
  induction front generalizing m with
  | nil => rfl
  | cons t front ih =>
    simp only [List.cons_append, advance]
    cases m.step? ops t with
    | some n => exact ih n
    | none => rfl

def answer (m : Machine σ α) (rest : List Token) : Except MachineError α :=
  match rest, m.stack with
  | _ :: _, _ => .error (.underflow m.position)
  | [], [] => .error .noValue
  | [], [value] => .ok value
  | [], stack => .error (.surplus stack.length)

end Machine

/-- The answer of a whole run from the empty stack, and the state that it leaves, also if it
fails. -/
def Program.execute {σ α : Type} (ops : Operations σ α) (p : Program) (state : σ) :
    Except MachineError α × σ :=
  let halted := (Machine.start state).advance ops p.tokens
  (halted.1.answer halted.2, halted.1.state)

end OneTwo
