import OneTwo.Machine.Basic

/-!
The calls that a run makes on its operations. `Operations.recorded` does what the operations it is
given do and keeps each call with its result beside their state, so the calls made in front of an
underflow are kept as well.
-/

namespace OneTwo

inductive Call (α : Type) where
  | literal (l : Literal) (result : α)
  | apply (op : Operator) (lower upper result : α)
  deriving DecidableEq

namespace Operations

variable {σ α : Type}

/-- The latest call is in front. -/
def recorded (ops : Operations σ α) : Operations (σ × List (Call α)) α where
  literal l := fun (s, calls) =>
    let (result, s) := ops.literal l s
    (result, s, .literal l result :: calls)
  apply op lower upper := fun (s, calls) =>
    let (result, s) := ops.apply op lower upper s
    (result, s, .apply op lower upper result :: calls)

end Operations

def Program.calls {σ α : Type} (ops : Operations σ α) (p : Program) (state : σ) :
    Except MachineError α × List (Call α) :=
  let (answer, _, calls) := p.execute ops.recorded (state, [])
  (answer, calls.reverse)

end OneTwo
