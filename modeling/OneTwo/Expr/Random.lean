import OneTwo.Expr.Basic
import OneTwo.Random.Source

/-!
Random expressions, drawn word by word. A literal takes two words and looks at the top bit of the
second. Above depth 0 the two top bits of a first word choose between a literal and the operators,
and an operator draws its left operand before its right one. So an expression takes two words for
each literal and one for each node drawn above depth 0, and leaves the next word untouched.
-/

namespace OneTwo.Expr

variable {m : Type → Type} [Monad m]

def randomLiteral (word : m UInt32) : m Expr := do
  let _ ← word
  let high ← word
  return literal (if high < 0x80000000 then .two else .one)

/-- The operator chosen by the two top bits of a word; `none` chooses a literal. -/
def randomOperator? (word : UInt32) : Option Operator :=
  match (word >>> 30).toNat with
  | 0 => none
  | 1 => some .add
  | 2 => some .mul
  | _ => some .div

def random (word : m UInt32) : (depth : Nat) → m Expr
  | 0 => randomLiteral word
  | depth + 1 => do
    match randomOperator? (← word) with
    | none => randomLiteral word
    | some op =>
      let left ← random word depth
      let right ← random word depth
      return apply op left right

def ofSeed (source : Random.Source) (seed : UInt64) (depth : Nat) : Expr :=
  let word : StateM source.State UInt32 := source.next
  (random word depth (source.ofSeed seed)).1

end OneTwo.Expr
