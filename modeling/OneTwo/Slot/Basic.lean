import OneTwo.Literal
import OneTwo.Operator

/-!
Slots, the cells of a frame. A slot has a kind and a value byte; only the value of a literal slot
means anything, and it may be any byte. The text of a slot shows exactly what means something.
-/

namespace OneTwo

inductive Slot.Kind where
  | literal
  | operator (op : Operator)
  | filler
  deriving DecidableEq

structure Slot where
  kind : Slot.Kind
  value : UInt8
  deriving DecidableEq

namespace Slot

namespace Kind

def all : List Kind :=
  [literal, operator .add, operator .mul, operator .div, filler]

def byte : Kind → UInt8
  | literal => 0
  | operator .add => 1
  | operator .mul => 2
  | operator .div => 3
  | filler => 4

/-- A kind for any byte: past the last one the bytes begin again. -/
def wrap (byte : UInt8) : Kind :=
  match byte.toNat % 5 with
  | 0 => literal
  | 1 => operator .add
  | 2 => operator .mul
  | 3 => operator .div
  | _ => filler

theorem wrap_byte (k : Kind) : wrap k.byte = k := by
  rcases k with _ | (_ | _ | _) | _ <;> rfl

def ofByte? (byte : UInt8) : Option Kind :=
  if byte.toNat < 5 then some (wrap byte) else none

theorem ofByte?_byte (k : Kind) : ofByte? k.byte = some k := by
  rcases k with _ | (_ | _ | _) | _ <;> rfl

end Kind

/-- The value is not looked at here: reading a frame does that. -/
def literal (value : UInt8) : Slot :=
  ⟨.literal, value⟩

def ofLiteral (l : Literal) : Slot :=
  literal (UInt8.ofNat l.value)

def ofKind (kind : Kind) : Slot :=
  ⟨kind, 0⟩

def filler : Slot :=
  ofKind .filler

def isFiller (s : Slot) : Bool :=
  s.kind == .filler

def text (s : Slot) : String :=
  match s.kind with
  | .literal => toString s.value.toNat
  | .operator op => op.symbol
  | .filler => "_"

def textAll (slots : List Slot) : String :=
  " ".intercalate (slots.map text)

end Slot

end OneTwo
