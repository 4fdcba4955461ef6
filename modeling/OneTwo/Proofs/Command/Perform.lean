import OneTwo.Proofs.Command.Report
import OneTwo.Proofs.Machine.Accepted
import OneTwo.Proofs.Slot.Lossy

/-!
What the commands come to in a world, one equation each. A generated program is written before its
report, and the slots of an expression are printed before they are written. Files are read here that
some command could have written: the program of an expression, and slots that decode to one. With
such a program neither running nor rebuilding fails, and such slots need no mending.
-/

namespace OneTwo

namespace Command

variable {α σ : Type} [FileSystem σ] (w : World σ) (source : Random.Source) (seed : UInt64)
  (depth : Nat) (path : String)

open Step

theorem actOn_readProgram :
    (readProgram path : Step α (StateM (World σ)) Program).actOn w =
      ((FileSystem.read w.directory path).mapError (.unreadable path) >>= fun bytes =>
        (Program.ofBytes bytes).mapError .bytecode, w) := by
  rw [readProgram, actOn_bind, actOn_read]
  cases FileSystem.read w.directory path with
  | error error => rfl
  | ok bytes => exact actOn_orFail w _ _

theorem actOn_readProgram_toBytes {w : World σ} {path : String} {p : Program}
    (holds : FileSystem.read w.directory path = .ok p.toBytes) :
    (readProgram path : Step α (StateM (World σ)) Program).actOn w = (.ok p, w) := by
  rw [actOn_readProgram, holds]
  simp [Except.mapError, bind, Except.bind, Program.ofBytes_toBytes]

theorem actOn_encodeToFile (bound : Nat) (layout : Frame.Layout) :
    let e := Expr.ofSeed source seed depth
    (encodeToFile source seed depth bound layout path : Step α (StateM (World σ)) Unit).actOn w =
      match Frame.encode layout bound 0 e with
      | .error error => (.error (.frame error), w)
      | .ok slots =>
        let lines := [s!"expr: {e.text}", s!"tokens: {Slot.textAll slots}"]
        match FileSystem.write w.directory path (Slot.Wire.write slots) with
        | (.ok (), directory) =>
          (.ok (),
            { w with directory }.say lines [.line s!"wrote {slots.length} tokens -> {path}"])
        | (.error error, directory) =>
          (.error (.unwritable path error), { w with directory }.say lines []) := by
  intro e
  simp only [encodeToFile, actOn_bind, actOn_orFail]
  cases Frame.encode layout bound 0 e with
  | error error => rfl
  | ok slots =>
    simp only [Except.mapError, actOn_print, actOn_write, World.say_say, World.directory_say]
    obtain ⟨error | _, directory⟩ := FileSystem.write w.directory path (Slot.Wire.write slots)
    · rfl
    · exact congrArg (Prod.mk _) (World.say_say { w with directory } _ [] [] _)

theorem actOn_readSlots (mode : Frame.Mode) (slots : List Slot) :
    (readSlots mode (Slot.Wire.write slots) : Step α (StateM (World σ)) (List Slot)).actOn w =
      (.ok slots, w) := by
  cases mode with
  | strict =>
    rw [readSlots, Slot.Wire.read_write]
    rfl
  | resilient =>
    rw [readSlots, Slot.Wire.readLossy_write, actOn_remarking]
    rfl

variable [Value α]

theorem actOn_generateAndReport :
    let e := Expr.ofSeed source seed depth
    (generateAndReport source seed depth (some path) : Step α (StateM (World σ)) Unit).actOn w =
      match FileSystem.write w.directory path e.compile.toBytes with
      | (.ok (), directory) =>
        (verdict α e, { w with directory }.say (reported α e)
          (.remark (.generated seed depth e) ::
            .line s!"wrote {e.compile.tokens.length} tokens -> {path}" ::
            (evaluating α e).map .remark))
      | (.error error, directory) =>
        (.error (.unwritable path error),
          { w with directory }.say [] [.remark (.generated seed depth e)]) := by
  intro e
  simp only [generateAndReport, actOn_bind, actOn_notify, actOn_write, World.directory_say]
  obtain ⟨error | _, directory⟩ := FileSystem.write w.directory path e.compile.toBytes
  · rfl
  · simp only [actOn_report]
    exact congrArg (Prod.mk _) (World.say_say _ _ _ _ _)

theorem actOn_runFile {w : World σ} {path : String} {e : Expr}
    (holds : FileSystem.read w.directory path = .ok e.compile.toBytes) (rebuild : Bool) :
    (runFile path rebuild : Step α (StateM (World σ)) Unit).actOn w =
      (.ok (), w.say
        ((if rebuild then [s!"expr: {e.text}",
            s!"eval: {Value.text (e.evaluate : Logged α).value}"] else []) ++
          [Value.text (e.value α)])
        ((e.compile.run α).records.map .remark ++
          if rebuild then (e.compile.rebuild.records ++ (e.evaluate : Logged α).records).map .remark
          else [])) := by
  have accepted : e.compile.check = .ok () := Program.check_eq_ok_iff.2 ⟨e, rfl⟩
  have rebuilt : e.compile.rebuild.value = .ok e := Program.rebuild_eq_ok_iff.2 rfl
  have program := actOn_readProgram_toBytes (α := α) holds
  cases rebuild <;>
    simp [runFile, actOn_bind, program, actOn_orFail, actOn_remarking, actOn_print, accepted,
      rebuilt, Program.value_run_compile, Except.mapError, World.say_say]

theorem actOn_decodeFile {w : World σ} {path : String} {slots : List Slot} {bound : Nat} {e : Expr}
    {mode : Frame.Mode} (holds : FileSystem.read w.directory path = .ok (Slot.Wire.write slots))
    (decodes : Frame.decode mode bound slots = pure (.ok e)) :
    (decodeFile path bound mode : Step α (StateM (World σ)) Unit).actOn w =
      (verdict α e, w.say (reported α e)
        (.remark (.decoding slots) :: (evaluating α e).map .remark)) := by
  simp [decodeFile, actOn_bind, actOn_read, holds, Except.mapError, actOn_readSlots, actOn_notify,
    actOn_remarking, decodes, actOn_orFail, actOn_report, World.say_say]

end Command

end OneTwo
