import OneTwo.Frame.Cursor
import OneTwo.Frame.Encode
import OneTwo.Logged

/-!
Reading an expression from a frame. The strict mode accepts what encoding gives and nothing else, up
to the values of slots that are no literals. The resilient mode mends what it can and remarks on it:
a literal out of range counts as 1, padding is passed over unseen, an operator at the bound counts
as 1, and slots after the expression are ignored. Neither mode mends a node that is missing or a
filler in its place.

A node is read at so many levels above the bound; that number bounds the recursion, and the padding
of a literal follows from it.
-/

namespace OneTwo.Frame

inductive Mode where
  | strict
  | resilient
  deriving DecidableEq, Inhabited

abbrev Reader := StateT Cursor (ExceptT FrameError Logged)

namespace Reader

def next : Reader (Option Slot) :=
  modifyGet Cursor.next

def log (record : Diagnostic) : Reader Unit :=
  (Logged.log record : Logged Unit)

end Reader

def readLiteral (mode : Mode) (position : Nat) (value : UInt8) : Reader Literal :=
  match Literal.ofInt? value.toNat, mode with
  | some l, _ => return l
  | none, .strict => throw (.invalidLiteral position value)
  | none, .resilient => do
    Reader.log (.literalCoerced position value)
    (Literal.recover value.toNat : Logged Literal)

def readPadding (mode : Mode) (expected : Nat) : Reader Unit := do
  let cursor ← get
  match mode with
  | .strict =>
    let fillers := ((cursor.ahead.take expected).takeWhile Slot.isFiller).length
    if fillers < expected then
      throw (.malformedPadding (cursor.position + fillers))
  | .resilient =>
    let available := cursor.available expected
    if available < expected then
      Reader.log (.paddingTruncated cursor.position available expected)
  set (cursor.skip expected)

/-- An operator on the last level, where only a literal fits. -/
def readAtBound (mode : Mode) (bound position : Nat) : Reader Expr :=
  match mode with
  | .strict => throw (.depthExceeded bound bound)
  | .resilient => do
    Reader.log (.operatorReplaced position)
    return .literal .one

def readNode (mode : Mode) (bound levels : Nat) : Reader Expr := do
  let position := (← get).position
  match ← Reader.next with
  | none => throw (.unexpectedEnd position)
  | some ⟨.filler, _⟩ => throw (.unexpectedFiller position)
  | some ⟨.literal, value⟩ =>
    let l ← readLiteral mode position value
    readPadding mode (padding levels)
    return .literal l
  | some ⟨.operator op, _⟩ =>
    match levels with
    | 0 => readAtBound mode bound position
    | levels + 1 =>
      let left ← readNode mode bound levels
      let right ← readNode mode bound levels
      return .apply op left right

def readEnd (mode : Mode) : Reader Unit := do
  let count := (← get).remaining
  if 0 < count then
    match mode with
    | .strict => throw (.trailingSlots count)
    | .resilient => Reader.log (.slotsIgnored count)

def readFrame (mode : Mode) (bound : Nat) : Reader Expr := do
  checkBound bound
  let e ← readNode mode bound bound
  readEnd mode
  return e

def decode (mode : Mode) (bound : Nat) (slots : List Slot) : Logged (Except FrameError Expr) :=
  (readFrame mode bound).run' (Cursor.ofList slots) |>.run

end OneTwo.Frame
