import OneTwo.Literal
import OneTwo.Operator

/-!
The values that expressions are computed in. Nothing is assumed of the operations, neither that they
commute nor that they associate, so whatever is stated for every `Arithmetic` holds of IEEE doubles
as of exact fractions. Operands come in written order: a division gets its dividend first.
-/

namespace OneTwo

class Arithmetic (α : Type) where
  literal : Literal → α
  zero : α
  apply : Operator → α → α → α

instance : Arithmetic Float where
  literal
    | .one => 1
    | .two => 2
  zero := 0
  apply
    | .add, x, y => x + y
    | .mul, x, y => x * y
    | .div, x, y => x / y

end OneTwo
