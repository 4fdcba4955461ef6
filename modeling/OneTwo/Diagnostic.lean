import OneTwo.Expr.Text
import OneTwo.Program
import OneTwo.Slot.Basic

/-!
Diagnostics: what a computation has to remark besides its result. Each remark is a value that keeps
what it is about; its level, the part of the tool it comes from and its text are read off it.
Whether a remark is shown depends on a level alone, and without a level none is shown.
-/

namespace OneTwo

inductive Level where
  | error
  | warn
  | info
  | debug
  | trace
  deriving DecidableEq

namespace Level

def rank : Level → Nat
  | error => 1
  | warn => 2
  | info => 3
  | debug => 4
  | trace => 5

def name : Level → String
  | error => "ERROR"
  | warn => "WARN"
  | info => "INFO"
  | debug => "DEBUG"
  | trace => "TRACE"

def shownAt (level : Level) : (limit : Option Level) → Bool
  | none => false
  | some limit => level.rank ≤ limit.rank

end Level

inductive Diagnostic where
  | literalReplaced (value : Int)
  /-- A division was evaluated as 0 because its divisor is no literal. -/
  | compoundDivisor (division : Expr)
  | oddByteDropped (length : Nat)
  | literalCoerced (position : Nat) (value : UInt8)
  | paddingTruncated (position available expected : Nat)
  | operatorReplaced (position : Nat)
  | slotsIgnored (count : Nat)
  | reached (position : Nat) (token : Token) (height : Nat)
  | generated (seed : UInt64) (depth : Nat) (expr : Expr)
  | decoding (slots : List Slot)
  deriving DecidableEq

namespace Diagnostic

def level : Diagnostic → Level
  | literalReplaced .. => .warn
  | compoundDivisor .. | oddByteDropped .. | literalCoerced .. | paddingTruncated ..
  | operatorReplaced .. | slotsIgnored .. => .debug
  | reached .. => .trace
  | generated .. | decoding .. => .info

def source : Diagnostic → String
  | literalReplaced .. => "twocalc_common::literal"
  | compoundDivisor .. => "twocalc_common::expr"
  | oddByteDropped .. => "twocalc_codec::token"
  | literalCoerced .. | paddingTruncated .. | operatorReplaced .. | slotsIgnored .. =>
    "twocalc_codec::decode"
  | reached .. => "twocalc_vm::execute"
  | generated .. | decoding .. => "twocalc::commands"

def text : Diagnostic → String
  | literalReplaced value => s!"invalid literal {value}, substituting 1"
  | compoundDivisor e => s!"divisor is not a literal, evaluating {e.text} as 0"
  | oddByteDropped length => s!"dropping trailing byte of odd-length stream ({length} bytes)"
  | literalCoerced position value => s!"token {position}: coercing literal {value}"
  | paddingTruncated position available expected =>
    s!"padding at token {position} truncated ({available} of {expected})"
  | operatorReplaced position =>
    s!"token {position}: operator at depth bound, substituting 1"
  | slotsIgnored count => s!"ignoring {count} trailing token(s)"
  | reached position token height =>
    s!"token {position} `{token.symbol}`, stack depth {height}"
  | generated seed depth e => s!"seed {seed} depth {depth} -> {e.text}"
  | decoding slots => s!"decoding {slots.length} tokens: {Slot.textAll slots}"

def shownAt (d : Diagnostic) (limit : Option Level) : Bool :=
  d.level.shownAt limit

end Diagnostic

end OneTwo
