import OneTwo.Proofs.Command.Calls
import OneTwo.Proofs.Command.Perform

/-!
Generating a program, and running and listing the file that was written. Only the file's bytes pass
from one call to the next; they give back the program, and the program gives back the expression.
The file is written in front of the report, so it is there even if the report fails.
-/

namespace OneTwo.Command

variable (α : Type) {σ : Type} [Value α] [FileSystem σ] (source : Random.Source) {f : String}
  (setting : Option String) {directory : σ}

theorem callIn_generating {seed : UInt64} {depth : Nat} (supported : depth ≤ Frame.maxBound)
    (plain : isFlag f = false) {after : σ} :
    let e := Expr.ofSeed source seed depth
    let generated := callIn α source (commandLine .generate (generating seed depth f)) setting
      directory
    FileSystem.write directory f e.compile.toBytes = (.ok (), after) →
      generated.exitCode = exitCode (verdict α e) ∧ generated.printed = reported α e ∧
        generated.directory = after := by
  intro e generated written
  have acted := actOn_generateAndReport (α := α) ⟨directory, #[], #[]⟩ source seed depth f
  have wrote : FileSystem.write directory f (Expr.ofSeed source seed depth).compile.toBytes =
      (.ok (), after) := written
  simp only [wrote] at acted
  have outcome : generated = _ := callIn_of_actOn (ofArgs_generating plain supported) acted
  rw [outcome]
  exact ⟨rfl, rfl, rfl⟩

section Written

variable {e : Expr} (plain : isFlag f = false)
  (holds : FileSystem.read directory f = .ok e.compile.toBytes)
include plain holds

theorem callIn_running :
    let ran := callIn α source (commandLine .run (running f true)) setting directory
    ran.exitCode = 0 ∧ ran.directory = directory ∧
      ran.printed = [s!"expr: {e.text}", s!"eval: {Value.text (e.evaluate : Logged α).value}",
        Value.text (e.value α)] := by
  intro ran
  have outcome : ran = _ := callIn_of_actOn (ofArgs_running plain true) (actOn_runFile holds true)
  rw [outcome]
  exact ⟨rfl, rfl, rfl⟩

theorem callIn_disassembling :
    let listed := callIn α source (commandLine .disassemble [.file f]) setting directory
    listed.exitCode = 0 ∧ listed.directory = directory ∧ listed.printed = [e.compile.text] := by
  intro listed
  have acted : (perform source (.disassemble f) : Step α (StateM (World σ)) Unit).actOn
      ⟨directory, #[], #[]⟩ = (.ok (), World.say ⟨directory, #[], #[]⟩ [e.compile.text] []) := by
    rw [perform, Step.actOn_bind, actOn_readProgram_toBytes holds]
    rfl
  have outcome : listed = _ := callIn_of_actOn (ofArgs_disassembling plain) acted
  rw [outcome]
  exact ⟨rfl, rfl, rfl⟩

end Written

/-- The program is written even if the report of its expression fails. -/
theorem run_generated_file [LawfulFileSystem σ] (directory : σ) (seed : UInt64) (depth : Nat)
    (supported : depth ≤ Frame.maxBound) (f : String) (plain : isFlag f = false)
    (accessible : FileSystem.Accessible directory f) :
    let e := Expr.ofSeed source seed depth
    let generated := callIn α source (commandLine .generate (generating seed depth f)) setting
      directory
    (generated.exitCode = 0 ∨ generated.exitCode = 4) ∧
      FileSystem.write directory f e.compile.toBytes = (.ok (), generated.directory) ∧
      FileSystem.content generated.directory f = some e.compile.toBytes ∧
      ∃ bytecode evaluated value : String,
        generated.printed = [s!"expr: {e.text}", s!"bytecode: {bytecode}", s!"eval: {evaluated}",
          s!"run: {value}"] ∧
        ∀ setting : Option String,
          let ran := callIn α source (commandLine .run (running f true)) setting
            generated.directory
          let listed := callIn α source (commandLine .disassemble [.file f]) setting
            generated.directory
          (ran.exitCode = 0 ∧
            ran.printed = [s!"expr: {e.text}", s!"eval: {evaluated}", value]) ∧
          listed.exitCode = 0 ∧ listed.printed = [bytecode] := by
  intro e generated
  obtain ⟨after, written, holds, readable⟩ := accessible.read_write e.compile.toBytes
  obtain ⟨exit, printed, left⟩ := callIn_generating α source setting supported plain written
  have same : generated.directory = after := left
  refine ⟨exit ▸ exitCode_verdict α e, same ▸ written, same ▸ holds, _, _, _, printed,
    fun setting => ?_⟩
  rw [same]
  obtain ⟨ended, -, lines⟩ := callIn_running α source setting plain readable
  obtain ⟨done, -, listing⟩ := callIn_disassembling α source setting plain readable
  exact ⟨⟨ended, lines⟩, done, listing⟩

theorem run_generated_file_diverging :
    let e := Expr.ofSeed .chaCha 15 2
    let directory : Directory := ⟨[]⟩
    let generated := callIn Float .chaCha ["generate", "--seed", "15", "--depth", "2", "-o", "f"]
      none directory
    (LawfulFileSystem Directory ∧ 2 ≤ Frame.maxBound ∧ isFlag "f" = false ∧
      FileSystem.Accessible directory "f") ∧
    generated.exitCode = 4 ∧
    generated.directory = directory.put "f" e.compile.toBytes ∧
    generated.directory.get? "f" = some [4, 3, 1, 3, 3, 2, 2] ∧ e.text = "((2 * 1) / (1 / 1))" ∧
    ∃ bytecode evaluated value : String,
      generated.printed = [s!"expr: {e.text}", s!"bytecode: {bytecode}", s!"eval: {evaluated}",
        s!"run: {value}"] ∧
      ∀ setting : Option String,
        let ran := callIn Float .chaCha ["run", "f", "--decompile"] setting generated.directory
        let listed := callIn Float .chaCha ["disassemble", "f"] setting generated.directory
        (ran.exitCode = 0 ∧
          ran.printed = [s!"expr: {e.text}", s!"eval: {evaluated}", value]) ∧
        listed.exitCode = 0 ∧ listed.printed = [bytecode] := by
  intro e directory generated
  have accessible : FileSystem.Accessible directory "f" := directory.accessible (by decide)
  have differs : generated.exitCode = 4 := by decide +kernel
  have bytes : e.compile.toBytes = [4, 3, 1, 3, 3, 2, 2] := by decide +kernel
  have drawn : e.text = "((2 * 1) / (1 / 1))" := by decide +kernel
  have written : commandLine .generate (generating 15 2 "f") =
      ["generate", "--seed", "15", "--depth", "2", "-o", "f"] := by decide
  have made := run_generated_file Float .chaCha none directory 15 2 (by decide) "f" (by decide)
    accessible
  rw [written] at made
  obtain ⟨-, wrote, holds, others⟩ := made
  have put := Directory.eq_put_of_write wrote
  have there : generated.directory.get? "f" = some [4, 3, 1, 3, 3, 2, 2] := bytes ▸ holds
  exact ⟨⟨inferInstance, by decide, by decide, accessible⟩, differs, put, there, drawn, others⟩

end OneTwo.Command
