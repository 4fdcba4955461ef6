import OneTwo.Command.Console
import OneTwo.Command.Usage
import OneTwo.Frame.Error
import OneTwo.Machine.Basic
import OneTwo.Slot.Wire
import OneTwo.Value

/-!
Why a call fails. The exit code is read off the cause: 1 for the arguments, a file or its bytes, 2
for a frame, 3 for a program that the machine cannot run, and 4 when the two evaluators differ.
-/

namespace OneTwo

inductive Failure (α : Type) where
  | usage (error : UsageError)
  | unreadable (path : String) (error : FileError)
  | unwritable (path : String) (error : FileError)
  | bytecode (error : InvalidToken)
  | wire (error : WireError)
  | frame (error : FrameError)
  /-- Found by the static check, or while rebuilding. -/
  | machine (error : MachineError)
  | running (error : MachineError)
  | divergence (evaluated ran : α)

namespace Failure

variable {α : Type}

def exitCode : Failure α → Nat
  | usage _ | unreadable .. | unwritable .. | bytecode _ | wire _ => 1
  | frame _ => 2
  | machine _ | running _ => 3
  | divergence .. => 4

def lines [Value α] : Failure α → List String
  | usage error => error.lines
  | unreadable path error => [s!"error: cannot read '{path}': {error.message}"]
  | unwritable path error => [s!"error: cannot write '{path}': {error.message}"]
  | bytecode error => [s!"error: {error.message}"]
  | wire error => [s!"error: {error.message}"]
  | frame error => [s!"error: {error.message}"]
  | machine error => [s!"error: {error.message}"]
  | running error => [s!"runtime error: {error.message}"]
  | divergence evaluated ran =>
    ["divergence: eval = " ++ Value.text evaluated ++ ", run = " ++ Value.text ran ++
      ", delta = " ++ Value.text (Value.gap evaluated ran)]

end Failure

end OneTwo
