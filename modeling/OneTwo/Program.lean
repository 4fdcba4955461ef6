import OneTwo.Literal
import OneTwo.Operator
import OneTwo.Text.Hex

/-!
Programs for the stack machine: reverse-Polish token sequences, with a form of one byte a token and
a text of one symbol a token. Nothing here asks whether a program is balanced.
-/

namespace OneTwo

inductive Token where
  | operator (op : Operator)
  | literal (value : Literal)
  deriving DecidableEq

structure InvalidToken where
  byte : UInt8
  deriving DecidableEq

def InvalidToken.message (e : InvalidToken) : String :=
  "invalid bytecode token: 0x" ++ Text.hexByte e.byte

namespace Token

def all : List Token :=
  [operator .add, operator .mul, operator .div, literal .one, literal .two]

def isOperator : Token → Bool
  | operator _ => true
  | literal _ => false

def symbol : Token → String
  | operator op => op.symbol
  | literal l => l.symbol

theorem symbol_injective {a b : Token} (h : a.symbol = b.symbol) : a = b := by
  rcases a with (_ | _ | _) | (_ | _) <;> rcases b with (_ | _ | _) | (_ | _) <;>
    simp_all [symbol, Operator.symbol, Literal.symbol]

def byte : Token → UInt8
  | operator .add => 0
  | operator .mul => 1
  | operator .div => 2
  | literal .one => 3
  | literal .two => 4

def ofByte (byte : UInt8) : Except InvalidToken Token :=
  match byte.toNat with
  | 0 => .ok (operator .add)
  | 1 => .ok (operator .mul)
  | 2 => .ok (operator .div)
  | 3 => .ok (literal .one)
  | 4 => .ok (literal .two)
  | _ => .error ⟨byte⟩

theorem ofByte_byte (t : Token) : ofByte t.byte = .ok t := by
  rcases t with (_ | _ | _) | (_ | _) <;> rfl

end Token

structure Program where
  tokens : List Token
  deriving DecidableEq

namespace Program

def toBytes (p : Program) : List UInt8 :=
  p.tokens.map Token.byte

def ofBytes (bytes : List UInt8) : Except InvalidToken Program :=
  mk <$> bytes.mapM Token.ofByte

theorem ofBytes_toBytes (p : Program) : ofBytes p.toBytes = .ok p := by
  obtain ⟨tokens⟩ := p
  have h : (tokens.map Token.byte).mapM Token.ofByte = .ok tokens := by
    induction tokens with
    | nil => rfl
    | cons t ts ih => simp [Token.ofByte_byte, ih, bind, Except.bind, pure, Except.pure]
  simp [ofBytes, toBytes, h, Functor.map, Except.map]

def text (p : Program) : String :=
  " ".intercalate (p.tokens.map Token.symbol)

end Program

end OneTwo
