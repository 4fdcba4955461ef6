import OneTwo.Expr.Basic

/-!
Infix text. Every operator node has its own parentheses, and a division is written dividend first.
-/

namespace OneTwo.Expr

def text : Expr → String
  | literal l => l.symbol
  | apply op left right =>
    let (first, second) := op.inOrder left.text right.text
    "(" ++ first ++ " " ++ op.symbol ++ " " ++ second ++ ")"

theorem text_div (divisor dividend : Expr) :
    (apply .div divisor dividend).text = "(" ++ dividend.text ++ " / " ++ divisor.text ++ ")" := by
  simp [text, Operator.inOrder, Operator.symbol, String.append_assoc]

end OneTwo.Expr
