import OneTwo.Proofs.Command.Arguments

/-!
Calls that follow their synopses, and the commands that they are read as. An option that is left out
leaves its number to a default, which for the depth of an expression to be encoded is the bound of
the frame.
-/

namespace OneTwo.Command

variable {args : List String} {name : String}

theorem word?_of_value? {n : Nat} (given : value? name args = some (toString n))
    (fits : n < UInt64.size) : word? name args = .ok (some (.ofNat n)) := by
  simp only [word?, given, Text.word?_toString fits]

theorem nat_of_value? (number : Option Nat) {default : Nat}
    (given : value? name args = number.map toString)
    (small : number.getD default ≤ Frame.maxBound) :
    nat name default args = .ok (number.getD default) := by
  cases number with
  | none =>
    simp only [nat, word?, given, Option.map_none, Option.getD_none]
    rfl
  | some n =>
    have fits : n < UInt64.size := Nat.lt_of_le_of_lt small (by decide)
    rw [nat, word?_of_value? given fits]
    exact congrArg Except.ok (UInt64.toNat_ofNat_of_lt fits)

theorem seedAndDepth_of_value? {seed : UInt64} (depth : Option Nat) {default : Nat}
    (givenSeed : value? Options.seed args = some (toString seed.toNat))
    (givenDepth : value? Options.depth args = depth.map toString)
    (small : depth.getD default ≤ Frame.maxBound) :
    seedAndDepth default args = .ok (seed, depth.getD default) := by
  have read := word?_of_value? givenSeed seed.toNat_lt
  rw [UInt64.ofNat_toNat] at read
  rw [seedAndDepth, read, nat_of_value? depth givenDepth small]
  simp [bind, Except.bind, pure, Except.pure, Nat.not_lt.2 small]

def commandLine (verb : Verb) (arguments : List Argument) : List String :=
  verb.name :: written arguments

theorem ofArgs_name_cons (verb : Verb) (args : List String) :
    ofArgs (verb.name :: args) = ofVerb verb args := by
  have command : isHelp verb.name = false := by cases verb <;> decide
  rw [ofArgs, command, Verb.ofName?_name]
  rfl

theorem ofArgs_commandLine (verb : Verb) {arguments : List Argument}
    (plain : ∀ a ∈ arguments, a.Plain) :
    ofArgs (withoutVerbose (commandLine verb arguments)) = ofVerb verb (written arguments) := by
  have kept : withoutVerbose (commandLine verb arguments) = commandLine verb arguments := by
    have calm : isVerbose verb.name = false := by cases verb <;> decide
    rw [withoutVerbose, commandLine, List.filter_cons, calm, ← withoutVerbose,
      withoutVerbose_written plain]
    rfl
  rw [kept, commandLine, ofArgs_name_cons]

def numbered (name : String) (n : Nat) : Argument :=
  .option name (toString n)

def optional (name : String) (number : Option Nat) : List Argument :=
  number.toList.map (numbered name)

def chosen (name : String) (wanted : Bool) : List Argument :=
  if wanted then [.switch name] else []

theorem plain_numbered {name : String} (valued : name ∈ Options.valued) (n : Nat) :
    (numbered name n).Plain :=
  ⟨valued, isFlag_toString n⟩

theorem plain_of_mem_optional {name : String} (valued : name ∈ Options.valued)
    (number : Option Nat) : ∀ a ∈ optional name number, a.Plain := by
  intro a there
  obtain ⟨n, -, rfl⟩ := List.mem_map.1 there
  exact plain_numbered valued n

theorem plain_of_mem_chosen {name : String} (plain : (Argument.switch name).Plain)
    (wanted : Bool) : ∀ a ∈ chosen name wanted, a.Plain := by
  cases wanted with
  | true => exact List.forall_mem_singleton.2 plain
  | false => exact List.forall_mem_nil _

section Synopses

variable {seed : UInt64} {bound : Nat} {path : String}

def encoding (seed : UInt64) (depth : Option Nat) (bound : Nat) (layout : Frame.Layout)
    (output : String) : List Argument :=
  [numbered Options.seed seed.toNat] ++ optional Options.depth depth ++
    [numbered Options.bound bound] ++ chosen Options.legacy (layout == .legacy) ++
    [.option Options.output output]

example : commandLine .encode (encoding 5 (some 1) 2 .legacy "f") =
    ["encode", "--seed", "5", "--depth", "1", "--max-depth", "2", "--legacy", "-o", "f"] := by
  decide

theorem ofArgs_encoding (plain : isFlag path = false) (supported : bound ≤ Frame.maxBound)
    {depth : Option Nat} (inside : depth.getD bound ≤ bound) (layout : Frame.Layout) :
    ofArgs (withoutVerbose (commandLine .encode (encoding seed depth bound layout path))) =
      .ok (.encode seed (depth.getD bound) bound layout path) := by
  have all : ∀ a ∈ encoding seed depth bound layout path, a.Plain := by
    simp only [encoding, List.forall_mem_append, List.forall_mem_singleton]
    exact ⟨⟨⟨⟨plain_numbered (by decide) _, plain_of_mem_optional (by decide) _⟩,
      plain_numbered (by decide) _⟩, plain_of_mem_chosen (by decide) _⟩, by decide, plain⟩
  generalize read : written (encoding seed depth bound layout path) = args at *
  have output : value? Options.output args = some path := by
    rw [← read, value?_written all (by decide)]
    cases depth <;> cases layout <;> rfl
  have size : nat Options.bound defaultBound args = .ok bound := by
    refine nat_of_value? (some bound) ?_ supported
    rw [← read, value?_written all (by decide)]
    cases depth <;> rfl
  have drawn : seedAndDepth bound args = .ok (seed, depth.getD bound) := by
    refine seedAndDepth_of_value? depth ?_ ?_ (Nat.le_trans inside supported)
    · rw [← read, value?_written all (by decide)]
      rfl
    · rw [← read, value?_written all (by decide)]
      cases depth <;> cases layout <;> rfl
  have switched : Command.layout args = layout := by
    rw [Command.layout, ← read, has_written all (by decide) (by decide)]
    cases depth <;> cases layout <;> rfl
  rw [ofArgs_commandLine .encode all, read, ofVerb, output]
  simp only [size, drawn, switched, bind, Except.bind, pure, Except.pure]

def decoding (input : String) (bound : Nat) (mode : Frame.Mode) : List Argument :=
  [.file input, numbered Options.bound bound] ++ chosen Options.resilient (mode == .resilient)

theorem ofArgs_decoding (plain : isFlag path = false) (supported : bound ≤ Frame.maxBound)
    (mode : Frame.Mode) :
    ofArgs (withoutVerbose (commandLine .decode (decoding path bound mode))) =
      .ok (.decode path bound mode) := by
  have all : ∀ a ∈ decoding path bound mode, a.Plain := by
    simp only [decoding, List.forall_mem_append, List.forall_mem_cons]
    exact ⟨⟨plain, plain_numbered (by decide) _, List.forall_mem_nil _⟩,
      plain_of_mem_chosen (by decide) _⟩
  generalize read : written (decoding path bound mode) = args at *
  have input : inputFor .decode args = .ok path := by
    rw [inputFor, ← read, input?_written all]
    rfl
  have size : nat Options.bound defaultBound args = .ok bound := by
    refine nat_of_value? (some bound) ?_ supported
    rw [← read, value?_written all (by decide)]
    rfl
  have switched : Command.mode args = mode := by
    rw [Command.mode, ← read, has_written all (by decide) (by decide)]
    cases mode <;> rfl
  rw [ofArgs_commandLine .decode all, read, ofVerb]
  simp only [input, size, switched, bind, Except.bind, pure, Except.pure]

def generating (seed : UInt64) (depth : Nat) (output : String) : List Argument :=
  [numbered Options.seed seed.toNat, numbered Options.depth depth, .option Options.output output]

theorem ofArgs_generating (plain : isFlag path = false) {depth : Nat}
    (supported : depth ≤ Frame.maxBound) :
    ofArgs (withoutVerbose (commandLine .generate (generating seed depth path))) =
      .ok (.generate seed depth (some path)) := by
  have all : ∀ a ∈ generating seed depth path, a.Plain := by
    simp only [generating, List.forall_mem_cons]
    exact ⟨plain_numbered (by decide) _, plain_numbered (by decide) _, ⟨by decide, plain⟩,
      List.forall_mem_nil _⟩
  generalize read : written (generating seed depth path) = args at *
  have output : value? Options.output args = some path := by
    rw [← read, value?_written all (by decide)]
    rfl
  have drawn : seedAndDepth defaultDepth args = .ok (seed, depth) := by
    refine seedAndDepth_of_value? (some depth) ?_ ?_ supported
    all_goals
      rw [← read, value?_written all (by decide)]
      rfl
  rw [ofArgs_commandLine .generate all, read, ofVerb, output]
  simp only [drawn, bind, Except.bind, pure, Except.pure]

def running (input : String) (rebuild : Bool) : List Argument :=
  [.file input] ++ chosen Options.rebuild rebuild

theorem ofArgs_running (plain : isFlag path = false) (rebuild : Bool) :
    ofArgs (withoutVerbose (commandLine .run (running path rebuild))) =
      .ok (.run path rebuild) := by
  have all : ∀ a ∈ running path rebuild, a.Plain := by
    simp only [running, List.forall_mem_append, List.forall_mem_singleton]
    exact ⟨plain, plain_of_mem_chosen (by decide) _⟩
  generalize read : written (running path rebuild) = args at *
  have input : inputFor .run args = .ok path := by
    rw [inputFor, ← read, input?_written all]
    rfl
  have switched : has Options.rebuild args = rebuild := by
    rw [← read, has_written all (by decide) (by decide)]
    cases rebuild <;> rfl
  rw [ofArgs_commandLine .run all, read, ofVerb, input, switched]
  rfl

theorem ofArgs_disassembling (plain : isFlag path = false) :
    ofArgs (withoutVerbose (commandLine .disassemble [.file path])) =
      .ok (.disassemble path) := by
  have all : ∀ a ∈ [Argument.file path], a.Plain := List.forall_mem_singleton.2 plain
  rw [ofArgs_commandLine .disassemble all, ofVerb, inputFor, input?_written all]
  rfl

end Synopses

end OneTwo.Command
