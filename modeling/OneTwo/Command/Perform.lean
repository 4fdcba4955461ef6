import OneTwo.Command.Basic
import OneTwo.Command.Failure
import OneTwo.Command.Verbosity
import OneTwo.Expr.Compile
import OneTwo.Expr.Evaluate
import OneTwo.Expr.Random
import OneTwo.Machine.Run
import OneTwo.Slot.Wire

/-!
What each command does, over any console, any values and any source of random words. A command
stops at its first failure; what it has written and printed by then stays. Generating writes its
file before it prints, and encoding prints before it writes.
-/

namespace OneTwo.Command

variable {α : Type} [Value α] {m : Type → Type} [Monad m] [Console m]

abbrev Step (α : Type) (m : Type → Type) := ExceptT (Failure α) m

namespace Step

def print (line : String) : Step α m Unit :=
  ExceptT.lift (Console.print line)

def notify (notice : Notice) : Step α m Unit :=
  ExceptT.lift (Console.notify notice)

/-- The value of a computation, after a notice of each of its records. -/
def remarking {β : Type} (x : Logged β) : Step α m β := do
  x.records.forM fun record => notify (.remark record)
  return x.value

def orFail {β ε : Type} (failure : ε → Failure α) : Except ε β → Step α m β
  | .ok value => return value
  | .error error => throw (failure error)

def read (path : String) : Step α m (List UInt8) := do
  orFail (.unreadable path) (← ExceptT.lift (Console.read path))

def write (path : String) (count : Nat) (bytes : List UInt8) : Step α m Unit := do
  orFail (.unwritable path) (← ExceptT.lift (Console.write path bytes))
  notify (.line s!"wrote {count} tokens -> {path}")

end Step

open Step

def report (e : Expr) : Step α m Unit := do
  let p := e.compile
  let evaluated : α ← remarking e.evaluate
  let ran ← orFail .running (← remarking (p.run α))
  print s!"expr: {e.text}"
  print s!"bytecode: {p.text}"
  print s!"eval: {Value.text evaluated}"
  print s!"run: {Value.text ran}"
  unless Value.same evaluated ran do
    throw (.divergence evaluated ran)

def readProgram (path : String) : Step α m Program := do
  orFail .bytecode (Program.ofBytes (← read path))

def generateAndReport (source : Random.Source) (seed : UInt64) (depth : Nat)
    (output : Option String) : Step α m Unit := do
  let e := Expr.ofSeed source seed depth
  notify (.remark (.generated seed depth e))
  if let some path := output then
    write path e.compile.tokens.length e.compile.toBytes
  report e

def runFile (path : String) (rebuild : Bool) : Step α m Unit := do
  let p ← readProgram path
  orFail .machine p.check
  let value ← orFail .running (← remarking (p.run α))
  if rebuild then
    let e ← orFail .machine (← remarking p.rebuild)
    print s!"expr: {e.text}"
    let evaluated : α ← remarking e.evaluate
    print s!"eval: {Value.text evaluated}"
  print (Value.text value)

def encodeToFile (source : Random.Source) (seed : UInt64) (depth bound : Nat)
    (layout : Frame.Layout) (path : String) : Step α m Unit := do
  let e := Expr.ofSeed source seed depth
  let slots ← orFail .frame (Frame.encode layout bound 0 e)
  print s!"expr: {e.text}"
  print s!"tokens: {Slot.textAll slots}"
  write path slots.length (Slot.Wire.write slots)

def readSlots (mode : Frame.Mode) (bytes : List UInt8) : Step α m (List Slot) :=
  match mode with
  | .strict => orFail .wire (Slot.Wire.read bytes)
  | .resilient => remarking (Slot.Wire.readLossy bytes)

def decodeFile (path : String) (bound : Nat) (mode : Frame.Mode) : Step α m Unit := do
  let slots ← readSlots mode (← read path)
  notify (.remark (.decoding slots))
  let e ← orFail .frame (← remarking (Frame.decode mode bound slots))
  report e

def perform (source : Random.Source) : Command → Step α m Unit
  | help => usage.forM fun line => notify (.line line)
  | generate seed depth output => generateAndReport source seed depth output
  | run input rebuild => runFile input rebuild
  | disassemble input => do print (← readProgram input).text
  | encode seed depth bound layout output => encodeToFile source seed depth bound layout output
  | decode input bound mode => decodeFile input bound mode

def call (α : Type) [Value α] (source : Random.Source) (args : List String) : m Nat := do
  let steps : Step α m Unit := do
    perform source (← orFail .usage (ofArgs (withoutVerbose args)))
  match ← steps.run with
  | .ok () => return 0
  | .error failure =>
    failure.lines.forM fun line => Console.notify (.line line)
    return failure.exitCode

end OneTwo.Command
