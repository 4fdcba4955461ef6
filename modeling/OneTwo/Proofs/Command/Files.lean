import OneTwo.Proofs.Command.Calls
import OneTwo.Proofs.Command.Ending

/-!
What a call does to the files. Only two commands write, each the one file that its arguments name,
and the bytes are those of the whole result. Encoding writes as its last step, so a call that fails
has written nothing; generating writes before its report, so of its failures only the difference of
the two results may leave a file behind. The file system may be any that keeps its laws.
-/

namespace OneTwo

variable {σ : Type} [FileSystem σ]

namespace FileSystem

/-- The directories differ at most in the content of one file, which is given for the later one. -/
def Replaces (before after : σ) (path : String) (bytes : List UInt8) : Prop :=
  content after path = some bytes ∧
    ∀ other, ¬SameFile before path other → content after other = content before other

theorem replaces_of_write [LawfulFileSystem σ] {before after : σ} {path : String}
    {bytes : List UInt8} (wrote : write before path bytes = (.ok (), after)) :
    Replaces before after path bytes :=
  ⟨LawfulFileSystem.content_of_write wrote,
    fun _ => LawfulFileSystem.content_of_write_of_not_sameFile wrote⟩

end FileSystem

theorem Verb.eq_name_of_ofName? {name : String} {verb : Verb} (h : ofName? name = some verb) :
    name = verb.name := by
  unfold ofName? at h
  split at h <;> cases h <;> rfl

namespace Command

variable {words : List String} {c : Command}

theorem exists_verb_of_ofArgs (accepted : ofArgs words = .ok c) :
    c = .help ∨ ∃ verb args, words = Verb.name verb :: args ∧ ofVerb verb args = .ok c := by
  cases words with
  | nil => cases accepted
  | cons name args =>
    rw [ofArgs] at accepted
    split at accepted
    · cases accepted
      exact .inl rfl
    · split at accepted
      · rename_i verb named
        exact .inr ⟨verb, args, by rw [Verb.eq_name_of_ofName? named], accepted⟩
      · cases accepted

section Verbs

variable {args : List String}

theorem exists_of_ofVerb_generate (accepted : ofVerb .generate args = .ok c) :
    ∃ seed depth, seedAndDepth defaultDepth args = .ok (seed, depth) ∧
      c = .generate seed depth (value? Options.output args) := by
  obtain ⟨⟨seed, depth⟩, drawn, made⟩ := bind_eq_ok_iff.1 accepted
  cases made
  exact ⟨seed, depth, drawn, rfl⟩

theorem exists_of_ofVerb_encode (accepted : ofVerb .encode args = .ok c) :
    ∃ seed depth bound path, value? Options.output args = some path ∧
      c = .encode seed depth bound (layout args) path := by
  simp only [ofVerb] at accepted
  split at accepted
  · rename_i path output
    obtain ⟨bound, -, accepted⟩ := bind_eq_ok_iff.1 accepted
    obtain ⟨⟨seed, depth⟩, -, made⟩ := bind_eq_ok_iff.1 accepted
    cases made
    exact ⟨seed, depth, bound, path, output, rfl⟩
  · cases accepted

theorem directoryAfter_of_ofVerb (source : Random.Source) (d : σ) {verb : Verb}
    (reads : verb ≠ .generate ∧ verb ≠ .encode) (accepted : ofVerb verb args = .ok c) :
    directoryAfter source d c = d := by
  cases verb with
  | generate => exact absurd rfl reads.1
  | encode => exact absurd rfl reads.2
  | run | disassemble =>
    obtain ⟨input, -, made⟩ := bind_eq_ok_iff.1 accepted
    cases made
    rfl
  | decode =>
    obtain ⟨input, -, accepted⟩ := bind_eq_ok_iff.1 accepted
    obtain ⟨bound, -, made⟩ := bind_eq_ok_iff.1 accepted
    cases made
    rfl

end Verbs

section Written

variable (α : Type) [Value α] [LawfulFileSystem σ] (source : Random.Source) (d : σ)

theorem changes_of_encode (seed : UInt64) (depth bound : Nat) (layout : Frame.Layout)
    (path : String) :
    let after := directoryAfter source d (.encode seed depth bound layout path)
    let code := exitCode (ending α source d (.encode seed depth bound layout path))
    code ≠ 0 ∧ after = d ∨
      code = 0 ∧ ∃ slots, Frame.encode layout bound 0 (Expr.ofSeed source seed depth) = .ok slots ∧
        FileSystem.Replaces d after path (Slot.Wire.write slots) := by
  simp only [directoryAfter, ending, Except.mapError, bind, Except.bind]
  cases Frame.encode layout bound 0 (Expr.ofSeed source seed depth) with
  | error error => exact .inl ⟨Nat.succ_ne_zero 1, rfl⟩
  | ok slots =>
    dsimp only
    rcases wrote : FileSystem.write d path (Slot.Wire.write slots) with ⟨error | _, written⟩
    · exact .inl ⟨Nat.succ_ne_zero 0, LawfulFileSystem.eq_of_write_error wrote⟩
    · exact .inr ⟨rfl, slots, rfl, FileSystem.replaces_of_write wrote⟩

theorem changes_of_generate (seed : UInt64) (depth : Nat) (output : Option String) :
    let after := directoryAfter source d (.generate seed depth output)
    let code := exitCode (ending α source d (.generate seed depth output))
    code = 1 ∧ after = d ∨
      code ≠ 1 ∧ (output = none → after = d) ∧
        ∀ path, output = some path →
          FileSystem.Replaces d after path (Expr.ofSeed source seed depth).compile.toBytes := by
  have reported : exitCode (verdict α (Expr.ofSeed source seed depth)) ≠ 1 := by
    obtain zero | four := exitCode_verdict α (Expr.ofSeed source seed depth) <;> omega
  cases output with
  | none => exact .inr ⟨reported, fun _ => rfl, by simp⟩
  | some path =>
    simp only [directoryAfter, ending, Except.mapError, bind, Except.bind]
    rcases wrote : FileSystem.write d path (Expr.ofSeed source seed depth).compile.toBytes with
      ⟨error | _, written⟩
    · exact .inl ⟨rfl, LawfulFileSystem.eq_of_write_error wrote⟩
    · refine .inr ⟨reported, by simp, ?_⟩
      rintro _ ⟨rfl⟩
      exact FileSystem.replaces_of_write wrote

end Written

/-- A path that is not the one written may still lead to the same file. -/
theorem callIn_changes_files (α : Type) [Value α] [LawfulFileSystem σ] (source : Random.Source)
    (args : List String) (setting : Option String) (directory : σ) :
    let outcome := callIn α source args setting directory
    let words := withoutVerbose args
    (words.head? ≠ some "encode" → words.head? ≠ some "generate" →
      outcome.directory = directory) ∧
    (∀ rest, words = "encode" :: rest →
      outcome.exitCode ≠ 0 ∧ outcome.directory = directory ∨
      outcome.exitCode = 0 ∧ ∃ seed depth bound path slots,
        ofVerb .encode rest = .ok (.encode seed depth bound (layout rest) path) ∧
        value? Options.output rest = some path ∧
        Frame.encode (layout rest) bound 0 (Expr.ofSeed source seed depth) = .ok slots ∧
        FileSystem.Replaces directory outcome.directory path (Slot.Wire.write slots)) ∧
    ∀ rest, words = "generate" :: rest →
      outcome.exitCode = 1 ∧ outcome.directory = directory ∨
      outcome.exitCode ≠ 1 ∧ ∃ seed depth,
        seedAndDepth defaultDepth rest = .ok (seed, depth) ∧
        (value? Options.output rest = none → outcome.directory = directory) ∧
        ∀ path, value? Options.output rest = some path →
          FileSystem.Replaces directory outcome.directory path
            (Expr.ofSeed source seed depth).compile.toBytes := by
  intro outcome words
  cases accepted : ofArgs words with
  | error error =>
    obtain ⟨code, same⟩ := callIn_of_error (α := α) source args directory setting accepted
    refine ⟨fun _ _ => same, fun rest _ => .inl ⟨?_, same⟩, fun rest _ => .inl ⟨code, same⟩⟩
    exact code ▸ Nat.one_ne_zero
  | ok c =>
    obtain ⟨code, after⟩ := callIn_of_ok (α := α) source args directory setting accepted
    refine ⟨fun encode generate => ?_, fun rest split => ?_, fun rest split => ?_⟩
    · rw [after]
      obtain rfl | ⟨verb, args, split, accepted⟩ := exists_verb_of_ofArgs accepted
      · rfl
      · refine directoryAfter_of_ofVerb source directory ⟨?_, ?_⟩ accepted
        · rintro rfl
          exact generate (congrArg List.head? split)
        · rintro rfl
          exact encode (congrArg List.head? split)
    · rw [split, show "encode" = Verb.encode.name from rfl, ofArgs_name_cons] at accepted
      obtain ⟨seed, depth, bound, path, output, rfl⟩ := exists_of_ofVerb_encode accepted
      rw [code, after]
      obtain kept | ⟨done, slots, wrote, replaces⟩ :=
        changes_of_encode α source directory seed depth bound (layout rest) path
      · exact .inl kept
      · exact .inr ⟨done, seed, depth, bound, path, slots, accepted, output, wrote, replaces⟩
    · rw [split, show "generate" = Verb.generate.name from rfl, ofArgs_name_cons] at accepted
      obtain ⟨seed, depth, drawn, rfl⟩ := exists_of_ofVerb_generate accepted
      rw [code, after]
      obtain kept | ⟨reported, written⟩ :=
        changes_of_generate α source directory seed depth (value? Options.output rest)
      · exact .inl kept
      · exact .inr ⟨reported, seed, depth, drawn, written⟩

theorem callIn_changes_files_overwritten :
    let directory : Directory := ⟨[("g", [8]), ("f", [7])]⟩
    let outcome := callIn Float .chaCha
      ["encode", "--seed", "13", "-v", "--max-depth", "1", "-o", "f"] none directory
    LawfulFileSystem Directory ∧ outcome.exitCode = 0 ∧ outcome.directory.get? "g" = some [8] ∧
      (∃ slots, outcome.directory.get? "f" = some (Slot.Wire.write slots)) ∧
      (outcome.directory.get? "f").map List.length = some 6 := by
  intro directory outcome
  have made : outcome.exitCode = 0 := by decide +kernel
  have size : (outcome.directory.get? "f").map List.length = some 6 := by decide +kernel
  obtain ⟨-, encoding, -⟩ := callIn_changes_files Float .chaCha
    ["encode", "--seed", "13", "-v", "--max-depth", "1", "-o", "f"] none directory
  obtain ⟨failed, -⟩ | ⟨-, seed, depth, bound, path, slots, -, output, -, new, others⟩ :=
    encoding ["--seed", "13", "--max-depth", "1", "-o", "f"] (by decide)
  · exact absurd made failed
  · obtain rfl : "f" = path := Option.some.inj output
    have apart : ¬FileSystem.SameFile directory "f" "g" := by
      change "f" ≠ "g"
      decide
    exact ⟨inferInstance, made, others "g" apart, ⟨slots, new⟩, size⟩

end Command

end OneTwo
