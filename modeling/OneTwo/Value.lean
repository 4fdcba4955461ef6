import OneTwo.Arithmetic
import OneTwo.Decimal.Positional

/-!
Values that the command line can compute, compare and print. Nothing is assumed of the comparison;
of doubles, not a number is unequal even to itself.
-/

namespace OneTwo

class Value (α : Type) extends Arithmetic α where
  same : α → α → Bool
  gap : α → α → α
  text : α → String

instance : Value Float where
  same x y := x == y
  gap x y := (x - y).abs
  text := Decimal.text

end OneTwo
