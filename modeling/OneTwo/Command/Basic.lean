import OneTwo.Command.Options
import OneTwo.Command.Usage
import OneTwo.Frame.Decode
import OneTwo.Text.Word

/-!
Commands, and how the arguments of a call are read into one. Of several faults the first in this
order is named: a file that is missing, the bound, the seed, the depth.
-/

namespace OneTwo

inductive Command where
  | help
  | generate (seed : UInt64) (depth : Nat) (output : Option String)
  | run (input : String) (rebuild : Bool)
  | disassemble (input : String)
  | encode (seed : UInt64) (depth bound : Nat) (layout : Frame.Layout) (output : String)
  | decode (input : String) (bound : Nat) (mode : Frame.Mode)
  deriving DecidableEq

namespace Command

def defaultDepth : Nat := 3

def defaultBound : Nat := 3

def word? (name : String) (args : List String) : Except UsageError (Option UInt64) :=
  match value? name args with
  | none => .ok none
  | some text =>
    match Text.word? text with
    | some word => .ok (some word)
    | none => .error (.invalidValue name text)

def nat (name : String) (default : Nat) (args : List String) : Except UsageError Nat := do
  match ← word? name args with
  | some word => return word.toNat
  | none => return default

def seedAndDepth (defaultDepth : Nat) (args : List String) : Except UsageError (UInt64 × Nat) := do
  let some seed ← word? Options.seed args | throw .seedRequired
  let depth ← nat Options.depth defaultDepth args
  if Frame.maxBound < depth then
    throw (.depthTooLarge depth Frame.maxBound)
  return (seed, depth)

def inputFor (verb : Verb) (args : List String) : Except UsageError String :=
  match input? args with
  | some input => .ok input
  | none => .error (.inputRequired verb)

def layout (args : List String) : Frame.Layout :=
  if has Options.legacy args then .legacy else .canonical

def mode (args : List String) : Frame.Mode :=
  if has Options.resilient args then .resilient else .strict

def ofVerb (verb : Verb) (args : List String) : Except UsageError Command := do
  match verb with
  | .generate =>
    let (seed, depth) ← seedAndDepth defaultDepth args
    return generate seed depth (value? Options.output args)
  | .run => return run (← inputFor verb args) (has Options.rebuild args)
  | .disassemble => return disassemble (← inputFor verb args)
  | .encode =>
    let some output := value? Options.output args | throw (.outputRequired verb)
    let bound ← nat Options.bound defaultBound args
    let (seed, depth) ← seedAndDepth bound args
    return encode seed depth bound (layout args) output
  | .decode =>
    let input ← inputFor verb args
    let bound ← nat Options.bound defaultBound args
    return decode input bound (mode args)

def isHelp (arg : String) : Bool :=
  arg ∈ ["--help", "-h", "help"]

def ofArgs : List String → Except UsageError Command
  | [] => .error .noCommand
  | name :: args =>
    if isHelp name then .ok help
    else
      match Verb.ofName? name with
      | some verb => ofVerb verb args
      | none => .error (.unknownCommand name)

end Command

end OneTwo
