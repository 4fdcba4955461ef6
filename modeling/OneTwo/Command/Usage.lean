/-!
How the commands are called, and what is wrong with a call. A fault in the arguments is found before
any file is touched.
-/

namespace OneTwo

inductive Verb where
  | generate
  | run
  | disassemble
  | encode
  | decode
  deriving DecidableEq

namespace Verb

def name : Verb → String
  | generate => "generate"
  | run => "run"
  | disassemble => "disassemble"
  | encode => "encode"
  | decode => "decode"

def ofName? : String → Option Verb
  | "generate" => some generate
  | "run" => some run
  | "disassemble" => some disassemble
  | "encode" => some encode
  | "decode" => some decode
  | _ => none

theorem ofName?_name (verb : Verb) : ofName? verb.name = some verb := by
  cases verb <;> rfl

def synopsis : Verb → String
  | generate => "generate --seed N [--depth D] [-o out.tcb]"
  | run => "run <prog.tcb> [--decompile]"
  | disassemble => "disassemble <prog.tcb>"
  | encode => "encode --seed N [--depth D] [--max-depth M] [--legacy] -o out.tcf"
  | decode => "decode <in.tcf> [--max-depth M] [--resilient]"

def summary : Verb → String
  | generate => "Generate and evaluate an expression"
  | run => "Run a bytecode program"
  | disassemble => "Print a bytecode program"
  | encode => "Encode a generated expression"
  | decode => "Decode and evaluate a flat buffer"

/-- The synopsis and, in a column of its own, the summary; a long synopsis has a line to itself. -/
def entry (verb : Verb) : List String :=
  let column := 52
  let text := "  " ++ verb.synopsis
  if text.length < column then
    [text.pushn ' ' (column - text.length) ++ verb.summary]
  else
    [text, "".pushn ' ' column ++ verb.summary]

end Verb

namespace Command

def usage : List String :=
  ["Usage: twocalc [--verbose] <command> [args]", "", "Commands:"] ++
    [Verb.generate, .run, .disassemble, .encode, .decode].flatMap Verb.entry ++
    ["", "Set TWOCALC_LOG=error|warn|info|debug|trace to control diagnostics."]

end Command

inductive UsageError where
  | noCommand
  | unknownCommand (name : String)
  | inputRequired (verb : Verb)
  | outputRequired (verb : Verb)
  | seedRequired
  | invalidValue (name text : String)
  | depthTooLarge (depth limit : Nat)
  deriving DecidableEq

def UsageError.lines : UsageError → List String
  | noCommand => Command.usage
  | unknownCommand name => s!"error: unknown command '{name}'" :: "" :: Command.usage
  | inputRequired verb =>
    [s!"error: {verb.name} requires an input file", s!"Usage: twocalc {verb.synopsis}"]
  | outputRequired verb =>
    [s!"error: {verb.name} requires an output file", s!"Usage: twocalc {verb.synopsis}"]
  | seedRequired => ["error: --seed is required"]
  | invalidValue name text => [s!"error: invalid value '{text}' for {name}"]
  | depthTooLarge depth limit => [s!"error: --depth {depth} exceeds the maximum of {limit}"]

end OneTwo
