/-!
Why an expression cannot be written to a frame, or read from one. Positions count slots from 0.
-/

namespace OneTwo

inductive FrameError where
  | invalidLiteral (position : Nat) (value : UInt8)
  | depthExceeded (depth bound : Nat)
  | malformedPadding (position : Nat)
  | trailingSlots (count : Nat)
  | unexpectedEnd (position : Nat)
  | unexpectedFiller (position : Nat)
  | boundTooLarge (bound limit : Nat)
  deriving DecidableEq

def FrameError.message : FrameError → String
  | invalidLiteral position value => s!"invalid literal value {value} at token {position}"
  | depthExceeded depth bound => s!"operator at depth {depth} exceeds depth bound {bound}"
  | malformedPadding position => s!"expected padding at token {position}"
  | trailingSlots count => s!"{count} unused token(s) after complete expression"
  | unexpectedEnd position => s!"unexpected end of tokens at {position}"
  | unexpectedFiller position => s!"padding token where a node was expected at {position}"
  | boundTooLarge bound limit =>
    s!"depth bound {bound} is larger than the supported maximum {limit}"

end OneTwo
