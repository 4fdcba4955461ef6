import OneTwo.Proofs.Command.Ending
import OneTwo.Proofs.Expr.Masking

/-!
What the exit code of a call tells. Each code above 0 has causes of its own, found by one kind of
step: 1 the arguments, a file or its bytes, 2 a frame, 3 the static check, and 4 the comparison of
two results. The steps stand in this order, so a cause counts if nothing in front of it failed.
-/

namespace OneTwo

def Expr.Diverges (α : Type) [Value α] (e : Expr) : Prop :=
  ∃ ran : α, (e.compile.run α).value = .ok ran ∧
    Value.same (e.evaluate : Logged α).value ran = false

namespace Command

section Causes

variable {σ : Type} [FileSystem σ] (source : Random.Source) (d : σ)

/-- A file cannot be read or written, or its bytes are none of the form expected. -/
def FileFails : Command → Prop
  | help => False
  | generate seed depth output =>
    ∃ path ∈ output, ∃ error,
      (FileSystem.write d path (Expr.ofSeed source seed depth).compile.toBytes).1 = .error error
  | run input _ | disassemble input =>
    (∃ error, FileSystem.read d input = .error error) ∨
      ∃ bytes error, FileSystem.read d input = .ok bytes ∧ Program.ofBytes bytes = .error error
  | encode seed depth bound layout path =>
    ∃ slots error, Frame.encode layout bound 0 (Expr.ofSeed source seed depth) = .ok slots ∧
      (FileSystem.write d path (Slot.Wire.write slots)).1 = .error error
  | decode input _ mode =>
    (∃ error, FileSystem.read d input = .error error) ∨
      ∃ bytes error, FileSystem.read d input = .ok bytes ∧ slotsOf mode bytes = .error error

/-- An expression cannot be written to a frame, or read from one. -/
def FrameFails : Command → Prop
  | encode seed depth bound layout _ =>
    ∃ error, Frame.encode layout bound 0 (Expr.ofSeed source seed depth) = .error error
  | decode input bound mode =>
    ∃ bytes slots error, FileSystem.read d input = .ok bytes ∧ slotsOf mode bytes = .ok slots ∧
      (Frame.decode mode bound slots).value = .error error
  | _ => False

/-- The bytes of a program name its tokens, and the static check refuses it. -/
def CheckFails : Command → Prop
  | run input _ =>
    ∃ bytes p error, FileSystem.read d input = .ok bytes ∧ Program.ofBytes bytes = .ok p ∧
      p.check = .error error
  | _ => False

/-- A report is made, of an expression on which the evaluators differ. -/
def ResultsDiffer (α : Type) [Value α] : Command → Prop
  | generate seed depth output =>
    (∀ path ∈ output,
      (FileSystem.write d path (Expr.ofSeed source seed depth).compile.toBytes).1 = .ok ()) ∧
      (Expr.ofSeed source seed depth).Diverges α
  | decode input bound mode =>
    ∃ bytes slots e, FileSystem.read d input = .ok bytes ∧ slotsOf mode bytes = .ok slots ∧
      (Frame.decode mode bound slots).value = .ok e ∧ e.Diverges α
  | _ => False

end Causes

section Endings

variable {α β ε : Type} (failure : ε → Failure α)

theorem exitCode_mapError_bind_eq_iff (x : Except ε β) (f : β → Except (Failure α) Unit)
    (code : Nat) :
    exitCode (x.mapError failure >>= f) = code ↔
      (∃ error, x = .error error ∧ (failure error).exitCode = code) ∨
        ∃ value, x = .ok value ∧ exitCode (f value) = code :=
  mapError_bind_iff (exitCode · = code)

theorem exitCode_mapError_eq_iff (x : Except ε Unit) (code : Nat) :
    exitCode (x.mapError failure) = code ↔
      (∃ error, x = .error error ∧ (failure error).exitCode = code) ∨ x = .ok () ∧ 0 = code := by
  cases x <;> simp [Except.mapError, exitCode]

theorem exitCode_le (x : Except (Failure α) Unit) : exitCode x ≤ 4 := by
  obtain failure | _ := x
  · cases failure <;> simp [exitCode, Failure.exitCode]
  · simp [exitCode]

end Endings

section Causes

variable {α σ : Type} [Value α] [FileSystem σ] (source : Random.Source) (d : σ)

theorem diverges_iff_differs (e : Expr) : e.Diverges α ↔ e.Differs α := by
  simp [Expr.Diverges, Expr.Differs, Program.value_run_compile]

theorem exitCode_verdict_eq_iff (e : Expr) (code : Nat) :
    exitCode (verdict α e) = code ↔ ¬e.Diverges α ∧ 0 = code ∨ e.Diverges α ∧ 4 = code := by
  rw [diverges_iff_differs, Expr.Differs, verdict]
  cases Value.same (e.evaluate : Logged α).value (e.value α) <;> simp [exitCode, Failure.exitCode]

theorem verdict_eq_error_iff (e : Expr) (cause : Failure α) :
    verdict α e = .error cause ↔
      e.Diverges α ∧ .divergence (e.evaluate : Logged α).value (e.value α) = cause := by
  rw [diverges_iff_differs, Expr.Differs, verdict]
  cases Value.same (e.evaluate : Logged α).value (e.value α) <;> simp

theorem exitCode_ending_eq_iff (c : Command) {code : Nat} (failed : 0 ≠ code) :
    exitCode (ending α source d c) = code ↔
      FileFails source d c ∧ 1 = code ∨ FrameFails source d c ∧ 2 = code ∨
        CheckFails d c ∧ 3 = code ∨ ResultsDiffer source d α c ∧ 4 = code := by
  have done : exitCode (.ok () : Except (Failure α) Unit) ≠ code := failed
  cases c with
  | help => simp [ending, FileFails, FrameFails, CheckFails, ResultsDiffer, done]
  | generate seed depth output =>
    cases output <;>
      simp [ending, FileFails, FrameFails, CheckFails, ResultsDiffer, exitCode_mapError_bind_eq_iff,
        exitCode_verdict_eq_iff, Failure.exitCode, failed, and_assoc, Unique.exists_iff]
  | run input rebuild =>
    simp [ending, programIn, FileFails, FrameFails, CheckFails, ResultsDiffer,
      exitCode_mapError_bind_eq_iff, exitCode_mapError_eq_iff, Failure.exitCode, failed,
      and_or_left, or_and_right, exists_or, ← exists_and_right, and_assoc, or_assoc]
  | disassemble input =>
    simp [ending, programIn, FileFails, FrameFails, CheckFails, ResultsDiffer,
      exitCode_mapError_bind_eq_iff, Failure.exitCode, done, or_and_right, ← exists_and_right,
      and_assoc]
  | encode seed depth bound layout output =>
    simp [ending, FileFails, FrameFails, CheckFails, ResultsDiffer, exitCode_mapError_bind_eq_iff,
      exitCode_mapError_eq_iff, Failure.exitCode, failed, ← exists_and_right, and_assoc, or_comm]
  | decode input bound mode =>
    simp [ending, FileFails, FrameFails, CheckFails, ResultsDiffer, exitCode_mapError_bind_eq_iff,
      exitCode_verdict_eq_iff, Failure.exitCode, failed, and_or_left, or_and_right, exists_or,
      ← exists_and_right, and_assoc, or_assoc]

theorem ending_eq_error_of_machine (c : Command) (error : MachineError) :
    (ending α source d c = .error (.machine error) ↔
      ∃ input rebuild bytes p, c = .run input rebuild ∧ FileSystem.read d input = .ok bytes ∧
        Program.ofBytes bytes = .ok p ∧ p.check = .error error) ∧
      ending α source d c ≠ .error (.running error) := by
  cases c with
  | help => simp [ending]
  | generate seed depth output =>
    cases output <;> simp [ending, mapError_bind_eq_error_iff, verdict_eq_error_iff]
  | run input rebuild =>
    simp [ending, programIn, mapError_bind_eq_error_iff, mapError_eq_error_iff]
  | disassemble input => simp [ending, programIn, mapError_bind_eq_error_iff]
  | encode seed depth bound layout output =>
    simp [ending, mapError_bind_eq_error_iff, mapError_eq_error_iff]
  | decode input bound mode => simp [ending, mapError_bind_eq_error_iff, verdict_eq_error_iff]

end Causes

theorem exitCode_steps_eq_iff (α : Type) {σ : Type} [Value α] [FileSystem σ]
    (source : Random.Source) (args : List String) (w : World σ) {code : Nat} (failed : 0 ≠ code) :
    exitCode ((steps α source args).actOn w).1 = code ↔
      (∃ error, ofArgs (withoutVerbose args) = .error error) ∧ 1 = code ∨
        ∃ c, ofArgs (withoutVerbose args) = .ok c ∧
          (FileFails source w.directory c ∧ 1 = code ∨ FrameFails source w.directory c ∧ 2 = code ∨
            CheckFails w.directory c ∧ 3 = code ∨
            ResultsDiffer source w.directory α c ∧ 4 = code) := by
  rw [fst_actOn_steps, exitCode_mapError_bind_eq_iff]
  simp only [exitCode_ending_eq_iff source w.directory _ failed, Failure.exitCode, exists_and_right]

/-- A `running` failure would come from the machine, in a report or behind the check, and a
`machine` failure from the check or from rebuilding. -/
theorem exitCode_tells_cause (α : Type) {σ : Type} [Value α] [FileSystem σ]
    (source : Random.Source) (args : List String) (setting : Option String) (directory : σ) :
    let accepted := ofArgs (withoutVerbose args)
    let ended := ((steps α source args).actOn ⟨directory, #[], #[]⟩).1
    let code := (callIn α source args setting directory).exitCode
    code = exitCode ended ∧ code ≤ 4 ∧
      (code = 1 ↔ (∃ error, accepted = .error error) ∨
        ∃ c, accepted = .ok c ∧ FileFails source directory c) ∧
      (code = 2 ↔ ∃ c, accepted = .ok c ∧ FrameFails source directory c) ∧
      (code = 3 ↔ ∃ c, accepted = .ok c ∧ CheckFails directory c) ∧
      (code = 4 ↔ ∃ c, accepted = .ok c ∧ ResultsDiffer source directory α c) ∧
      (∀ error, ended ≠ .error (.running error)) ∧
      ∀ error, ended = .error (.machine error) ↔
        ∃ input rebuild bytes p, accepted = .ok (.run input rebuild) ∧
          FileSystem.read directory input = .ok bytes ∧ Program.ofBytes bytes = .ok p ∧
          p.check = .error error := by
  intro accepted ended code
  have same : code = exitCode ended :=
    congrArg Outcome.exitCode (callIn_eq source args setting directory)
  have causes {n : Nat} (failed : 0 ≠ n) :=
    exitCode_steps_eq_iff α source args ⟨directory, #[], #[]⟩ failed
  have steps : ended = accepted.mapError .usage >>= ending α source directory :=
    fst_actOn_steps source args _
  have never (error : MachineError) : ended ≠ .error (.running error) := by
    simp [steps, mapError_bind_eq_error_iff, ending_eq_error_of_machine]
  have checked (error : MachineError) : ended = .error (.machine error) ↔
      ∃ c, accepted = .ok c ∧ ending α source directory c = .error (.machine error) := by
    simp [steps, mapError_bind_eq_error_iff]
  have only (error : MachineError) : ended = .error (.machine error) ↔
      ∃ input rebuild bytes p, accepted = .ok (.run input rebuild) ∧
        FileSystem.read directory input = .ok bytes ∧ Program.ofBytes bytes = .ok p ∧
        p.check = .error error := by
    rw [checked]
    simp only [ending_eq_error_of_machine]
    constructor
    · rintro ⟨_, accepts, input, rebuild, bytes, p, rfl, found⟩
      exact ⟨input, rebuild, bytes, p, accepts, found⟩
    · rintro ⟨input, rebuild, bytes, p, accepts, found⟩
      exact ⟨_, accepts, input, rebuild, bytes, p, rfl, found⟩
  refine ⟨same, same ▸ exitCode_le ended, ?_, ?_, ?_, ?_, never, only⟩ <;>
    simp [same, ended, causes, accepted]

example :
    let d : Directory := ⟨[("f", [3, 0])]⟩
    (callIn Float .chaCha ["run", "f"] none d).exitCode = 3 ∧
      (callIn Float .chaCha
        ["encode", "--seed", "13", "--depth", "2", "--max-depth", "0", "-o", "f"]
        none d).exitCode = 2 := by
  decide +kernel

end Command

end OneTwo
