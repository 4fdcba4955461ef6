import OneTwo.Logged
import OneTwo.Machine.Basic

/-!
Stack heights without values. What a token does to the height of the stack does not depend on the
values there, so one function, `Token.heightAfter?`, answers for every run: it decides the static
check and gives the remarks that a run makes on its way.
-/

namespace OneTwo

/-- The height of the stack after a token; nothing if the token cannot be executed. -/
def Token.heightAfter? (t : Token) (height : Nat) : Option Nat :=
  match t with
  | literal _ => some (height + 1)
  | operator _ => if height < 2 then none else some (height - 1)

theorem Machine.heightAfter?_length {σ α : Type} (ops : Operations σ α) (m : Machine σ α)
    (t : Token) :
    t.heightAfter? m.stack.length = (m.step? ops t).map fun n => n.stack.length := by
  obtain ⟨position, stack, state⟩ := m
  rcases t with op | l
  · rcases stack with _ | ⟨upper, _ | ⟨lower, rest⟩⟩ <;>
      simp [Token.heightAfter?, step?, next]
  · simp [Token.heightAfter?, step?, next]

namespace Program

def heightAfter : (position height : Nat) → List Token → Except MachineError Nat
  | _, height, [] => .ok height
  | position, height, t :: rest =>
    match t.heightAfter? height with
    | some after => heightAfter (position + 1) after rest
    | none => .error (.underflow position)

/-- Whether a run would leave exactly one value. -/
def check (p : Program) : Except MachineError Unit := do
  match ← heightAfter 0 0 p.tokens with
  | 0 => throw .noValue
  | 1 => return ()
  | count => throw (.surplus count)

def remarks (made : Array Diagnostic) : (position height : Nat) → List Token → Array Diagnostic
  | _, _, [] => made
  | position, height, t :: rest =>
    let made := made.push (.reached position t height)
    match t.heightAfter? height with
    | some after => remarks made (position + 1) after rest
    | none => made

def trace (p : Program) : List Diagnostic :=
  (remarks #[] 0 0 p.tokens).toList

end Program

end OneTwo
