/-!
The arguments of a command. The value of an option is the argument behind the first one that is
spelt like its name, wherever the two stand. The input is the first argument left over when
options with values are passed over together with these, and all else that begins with a hyphen.
-/

namespace OneTwo.Command

namespace Options

def seed : String := "--seed"
def depth : String := "--depth"
def bound : String := "--max-depth"
def output : String := "-o"

def valued : List String := [seed, depth, bound, output]

def rebuild : String := "--decompile"
def legacy : String := "--legacy"
def resilient : String := "--resilient"

end Options

def value? (name : String) : List String → Option String
  | arg :: next :: rest => if arg = name then some next else value? name (next :: rest)
  | _ => none

def has (name : String) (args : List String) : Bool :=
  args.contains name

def isFlag (arg : String) : Bool :=
  arg.toList.head? == some '-'

def input? : List String → Option String
  | [] => none
  | arg :: rest =>
    if Options.valued.contains arg then
      match rest with
      | [] => none
      | _ :: rest => input? rest
    else if isFlag arg then input? rest
    else some arg

end OneTwo.Command
