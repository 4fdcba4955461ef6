import OneTwo.Diagnostic
import OneTwo.Text.Blank

/-!
The level up to which diagnostics are shown. It is named by a setting outside the arguments, in any
mixture of cases and with blanks around it; without a setting, or with one that names no level,
warnings are shown. Two arguments ask for more, wherever they stand, and are no arguments of a
command.
-/

namespace OneTwo.Command

def isVerbose (arg : String) : Bool :=
  arg ∈ ["--verbose", "-v"]

/-- The level that a text names; `off` is a level too, the one that shows nothing. -/
def level? (text : String) : Option (Option Level) :=
  match (Text.trim text).toLower with
  | "off" => some none
  | "error" => some (some .error)
  | "warn" => some (some .warn)
  | "info" => some (some .info)
  | "debug" => some (some .debug)
  | "trace" => some (some .trace)
  | _ => none

def verbosity (args : List String) (setting : Option String) : Option Level :=
  if args.any isVerbose then some .debug
  else ((setting.bind level?).getD (some .warn))

def withoutVerbose (args : List String) : List String :=
  args.filter fun arg => !isVerbose arg

end OneTwo.Command
