import OneTwo.Proofs.Command.Calls
import OneTwo.Proofs.Command.Perform
import OneTwo.Proofs.Expr.Random
import OneTwo.Proofs.Frame.Legacy

/-!
Encoding a random expression, and decoding the file that was written. A random expression fits into
the frame, since without a depth of its own it takes that of the frame, so encoding cannot fail; and
what is decoded is the expression that the layout stored, whose report only the comparison of the
two results can make fail. The file may be any, in any file system, that can be written and then
read.
-/

namespace OneTwo.Command

variable (α : Type) {σ : Type} [Value α] [FileSystem σ] (source : Random.Source) {bound : Nat}
  {f : String} (setting : Option String) {directory : σ}

theorem callIn_encoding {seed : UInt64} {depth : Option Nat} (supported : bound ≤ Frame.maxBound)
    (inside : depth.getD bound ≤ bound) {layout : Frame.Layout} (plain : isFlag f = false)
    {after : σ} :
    let e := Expr.ofSeed source seed (depth.getD bound)
    let slots := Frame.image bound (layout.stored e)
    let encoded := callIn α source (commandLine .encode (encoding seed depth bound layout f))
      setting directory
    FileSystem.write directory f (Slot.Wire.write slots) = (.ok (), after) →
      encoded.exitCode = 0 ∧
        encoded.printed = [s!"expr: {e.text}", s!"tokens: {Slot.textAll slots}"] ∧
        encoded.directory = after := by
  intro e slots encoded written
  have fits : e.depth ≤ bound := Expr.depth_ofSeed_le source seed inside
  have wrote : Frame.encode layout bound 0 (Expr.ofSeed source seed (depth.getD bound)) =
      .ok slots := (Frame.encode_eq_image_stored layout supported fits).2
  have acted := actOn_encodeToFile (α := α) ⟨directory, #[], #[]⟩ source seed (depth.getD bound) f
    bound layout
  simp only [wrote, written] at acted
  have outcome : encoded = _ :=
    callIn_of_actOn (ofArgs_encoding plain supported inside layout) acted
  rw [outcome]
  exact ⟨rfl, rfl, rfl⟩

theorem callIn_decoding {e : Expr} (supported : bound ≤ Frame.maxBound) (fits : e.depth ≤ bound)
    (plain : isFlag f = false)
    (holds : FileSystem.read directory f = .ok (Slot.Wire.write (Frame.image bound e)))
    (mode : Frame.Mode) :
    let decoded := callIn α source (commandLine .decode (decoding f bound mode)) setting directory
    decoded.exitCode = exitCode (verdict α e) ∧ decoded.printed = reported α e ∧
      decoded.directory = directory := by
  intro decoded
  have decodes : Frame.decode mode bound (Frame.image bound e) = pure (.ok e) :=
    Frame.decode_of_map_bare mode supported fits (Frame.map_bare_image bound e)
  have outcome : decoded = _ :=
    callIn_of_actOn (ofArgs_decoding plain supported mode) (actOn_decodeFile holds decodes)
  rw [outcome]
  exact ⟨rfl, rfl, rfl⟩

/-- Nothing is assumed of the source. The first line of a report shows its expression. -/
theorem decode_encoded_file [LawfulFileSystem σ] (directory : σ) (seed : UInt64) (bound : Nat)
    (depth : Option Nat) (supported : bound ≤ Frame.maxBound) (inside : depth.getD bound ≤ bound)
    (layout : Frame.Layout) (f : String) (plain : isFlag f = false)
    (accessible : FileSystem.Accessible directory f) :
    let e := Expr.ofSeed source seed (depth.getD bound)
    let encoded := callIn α source (commandLine .encode (encoding seed depth bound layout f))
      setting directory
    encoded.exitCode = 0 ∧ (∃ tokens, encoded.printed = [s!"expr: {e.text}", tokens]) ∧
      (∃ bytes, FileSystem.write directory f bytes = (.ok (), encoded.directory) ∧
        FileSystem.content encoded.directory f = some bytes ∧
        bytes.length = 2 * Frame.size bound) ∧
      ∀ (mode : Frame.Mode) (setting : Option String),
        let decoded := callIn α source (commandLine .decode (decoding f bound mode)) setting
          encoded.directory
        (decoded.exitCode = 0 ∨ decoded.exitCode = 4) ∧
          decoded.printed = reported α (layout.stored e) := by
  intro e encoded
  have fits : e.depth ≤ bound := Expr.depth_ofSeed_le source seed inside
  have room := (Frame.encode_eq_image_stored layout supported fits).1
  obtain ⟨after, written, holds, readable⟩ :=
    accessible.read_write (Slot.Wire.write (Frame.image bound (layout.stored e)))
  obtain ⟨exit, printed, left⟩ :=
    callIn_encoding α source setting supported inside plain written
  have same : encoded.directory = after := left
  refine ⟨exit, ⟨_, printed⟩, ⟨_, same ▸ written, same ▸ holds, ?_⟩, fun mode setting => ?_⟩
  · rw [Slot.Wire.length_write, Frame.length_image supported room]
  · rw [same]
    obtain ⟨ended, lines, -⟩ := callIn_decoding α source setting supported room plain readable mode
    exact ⟨ended ▸ exitCode_verdict α _, lines⟩

theorem decode_encoded_file_product :
    let e : Expr := Expr.ofSeed .chaCha 13 2
    let directory : Directory := ⟨[("g", [8]), ("f", [7])]⟩
    let encoded := callIn Float .chaCha
      ["encode", "--seed", "13", "--max-depth", "2", "--legacy", "-o", "f"] none directory
    (LawfulFileSystem Directory ∧ 2 ≤ Frame.maxBound ∧ (none : Option Nat).getD 2 ≤ 2 ∧
      isFlag "f" = false ∧ FileSystem.Accessible directory "f") ∧
    encoded.exitCode = 0 ∧ e.text = "(2 * (1 * 2))" ∧
    (∃ tokens, encoded.printed = [s!"expr: {e.text}", tokens]) ∧
    (∃ bytes, encoded.directory = directory.put "f" bytes ∧
      encoded.directory.get? "f" = some bytes ∧ bytes.length = 14) ∧
    ∀ (mode : Frame.Mode) (setting : Option String),
      let decoded := callIn Float .chaCha (commandLine .decode (decoding "f" 2 mode)) setting
        encoded.directory
      (decoded.exitCode = 0 ∨ decoded.exitCode = 4) ∧
        decoded.printed = reported Float e.squared ∧ e.squared.text = "((2 * 2) * (2 * 2))" := by
  intro e directory encoded
  have accessible : FileSystem.Accessible directory "f" := directory.accessible (by decide)
  have drawn : e.text = "(2 * (1 * 2))" := by decide +kernel
  have stored : e.squared.text = "((2 * 2) * (2 * 2))" := by decide +kernel
  have written : commandLine .encode (encoding 13 none 2 .legacy "f") =
      ["encode", "--seed", "13", "--max-depth", "2", "--legacy", "-o", "f"] := by decide
  have made := decode_encoded_file Float .chaCha none directory 13 2 none (by decide) (by decide)
    .legacy "f" (by decide) accessible
  rw [written] at made
  obtain ⟨exit, printed, ⟨bytes, wrote, holds, size⟩, reads⟩ := made
  have put := Directory.eq_put_of_write wrote
  exact ⟨⟨inferInstance, by decide, by decide, by decide, accessible⟩, exit, drawn, printed,
    ⟨bytes, put, holds, size⟩,
    fun mode setting => ⟨(reads mode setting).1, (reads mode setting).2, stored⟩⟩

end OneTwo.Command
