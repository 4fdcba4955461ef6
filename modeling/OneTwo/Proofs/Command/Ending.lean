import OneTwo.Proofs.Command.Perform
import OneTwo.Proofs.Program.Bytes

/-!
How every command ends, and what it leaves in the directory, whatever the directory holds. Most
steps only read: they come to a result of the directory alone, and leave the world as it was but for
what they say. Two commands write, one file at most, and only after every step that could still
refuse the call. So a whole call is described by two functions of a command and a directory,
`ending` and `directoryAfter`. No law of the file system is needed: a write may fail and leave
anything behind.
-/

namespace OneTwo

variable {σ : Type}

theorem World.say_nil (w : World σ) : w.say [] [] = w := by
  simp [say]

namespace Command

variable {α β γ : Type}

namespace Step

/-- The step comes to a result of the directory alone, and does no more than say something. -/
def ReadsOnly (x : Step α (StateM (World σ)) β) (result : σ → Except (Failure α) β) :
    Prop :=
  ∀ w : World σ, ∃ lines notices, x.actOn w = (result w.directory, w.say lines notices)

theorem ReadsOnly.bind {x : Step α (StateM (World σ)) β} {f : β → Step α (StateM (World σ)) γ}
    {result : σ → Except (Failure α) β} {results : β → σ → Except (Failure α) γ}
    (first : ReadsOnly x result) (rest : ∀ value, ReadsOnly (f value) (results value)) :
    ReadsOnly (x >>= f) fun d => result d >>= fun value => results value d := by
  intro w
  obtain ⟨lines, notices, acted⟩ := first w
  beta_reduce
  rw [actOn_bind, acted]
  cases result w.directory with
  | error failure => exact ⟨lines, notices, rfl⟩
  | ok value =>
    obtain ⟨more, further, acted⟩ := rest value (w.say lines notices)
    exact ⟨_, _, acted.trans (congrArg (Prod.mk _) (w.say_say lines more notices further))⟩

theorem readsOnly_orFail {ε : Type} (failure : ε → Failure α) (x : Except ε β) :
    ReadsOnly (orFail failure x) fun _ : σ => x.mapError failure :=
  fun w => ⟨[], [], by rw [actOn_orFail, w.say_nil]⟩

variable [FileSystem σ]

theorem readsOnly_read (path : String) :
    ReadsOnly (α := α) (read path) fun d : σ =>
      (FileSystem.read d path).mapError (.unreadable path) :=
  fun w => ⟨[], [], by rw [actOn_read, w.say_nil]⟩

theorem readsOnly_print (line : String) : ReadsOnly (α := α) (print line) fun _ : σ => .ok () :=
  fun w => ⟨[line], [], actOn_print w line⟩

theorem readsOnly_notify (notice : Notice) :
    ReadsOnly (α := α) (notify notice) fun _ : σ => .ok () :=
  fun w => ⟨[], [notice], actOn_notify w notice⟩

theorem readsOnly_remarking (x : Logged β) :
    ReadsOnly (α := α) (remarking x) fun _ : σ => .ok x.value :=
  fun w => ⟨[], _, actOn_remarking w x⟩

end Step

def programIn [FileSystem σ] (d : σ) (path : String) : Except (Failure α) Program :=
  (FileSystem.read d path).mapError (.unreadable path) >>= fun bytes =>
    (Program.ofBytes bytes).mapError .bytecode

def slotsOf (mode : Frame.Mode) (bytes : List UInt8) : Except WireError (List Slot) :=
  match mode with
  | .strict => Slot.Wire.read bytes
  | .resilient => .ok (Slot.Wire.readLossy bytes).value

section Ending

variable (α) [Value α] [FileSystem σ] (source : Random.Source) (d : σ)

def ending : Command → Except (Failure α) Unit
  | help => .ok ()
  | generate seed depth none => verdict α (Expr.ofSeed source seed depth)
  | generate seed depth (some path) =>
    let e := Expr.ofSeed source seed depth
    (FileSystem.write d path e.compile.toBytes).1.mapError (.unwritable path) >>= fun _ =>
      verdict α e
  | run input _ => programIn d input >>= fun p => p.check.mapError .machine
  | disassemble input => programIn d input >>= fun _ => .ok ()
  | encode seed depth bound layout path =>
    (Frame.encode layout bound 0 (Expr.ofSeed source seed depth)).mapError .frame >>= fun slots =>
      (FileSystem.write d path (Slot.Wire.write slots)).1.mapError (.unwritable path)
  | decode input bound mode =>
    (FileSystem.read d input).mapError (.unreadable input) >>= fun bytes =>
      (slotsOf mode bytes).mapError .wire >>= fun slots =>
        (Frame.decode mode bound slots).value.mapError .frame >>= verdict α

def directoryAfter : Command → σ
  | generate seed depth (some path) =>
    (FileSystem.write d path (Expr.ofSeed source seed depth).compile.toBytes).2
  | encode seed depth bound layout path =>
    match Frame.encode layout bound 0 (Expr.ofSeed source seed depth) with
    | .ok slots => (FileSystem.write d path (Slot.Wire.write slots)).2
    | .error _ => d
  | _ => d

end Ending

open Step

section Commands

variable [FileSystem σ]

theorem programIn_eq_ok_iff {d : σ} {path : String} {p : Program} :
    programIn (α := α) d path = .ok p ↔ FileSystem.read d path = .ok p.toBytes := by
  rw [programIn]
  cases FileSystem.read d path with
  | error error => simp [Except.mapError, bind, Except.bind]
  | ok bytes =>
    rw [Except.ok.injEq, eq_comm (a := bytes), ← Program.ofBytes_eq_ok_iff]
    cases h : Program.ofBytes bytes <;> simp [h, Except.mapError, bind, Except.bind]

theorem readsOnly_readProgram (path : String) :
    ReadsOnly (α := α) (readProgram path) fun d : σ => programIn d path :=
  (readsOnly_read path).bind fun _ => readsOnly_orFail _ _

theorem readsOnly_readSlots (mode : Frame.Mode) (bytes : List UInt8) :
    ReadsOnly (α := α) (readSlots mode bytes) fun _ : σ => (slotsOf mode bytes).mapError .wire := by
  cases mode with
  | strict => exact readsOnly_orFail _ _
  | resilient => exact readsOnly_remarking _

theorem readsOnly_usage :
    ReadsOnly (α := α) (usage.forM fun line => notify (.line line)) fun _ : σ => .ok () :=
  fun w => ⟨[], _, actOn_forM_notify w Notice.line usage⟩

theorem readsOnly_disassemble (path : String) :
    ReadsOnly (α := α) (do print (← readProgram path).text) fun d : σ =>
      programIn d path >>= fun _ => .ok () :=
  (readsOnly_readProgram path).bind fun _ => readsOnly_print _

variable [Value α]

theorem readsOnly_report (e : Expr) : ReadsOnly (report e) fun _ : σ => verdict α e :=
  fun w => ⟨_, _, actOn_report α e w⟩

theorem readsOnly_runFile (path : String) (rebuild : Bool) :
    ReadsOnly (α := α) (runFile path rebuild) fun d : σ =>
      programIn d path >>= fun p => p.check.mapError .machine := by
  intro w
  have program : (readProgram path).actOn w = (programIn (α := α) w.directory path, w) :=
    actOn_readProgram w path
  beta_reduce
  cases read : programIn (α := α) w.directory path with
  | error failure =>
    refine ⟨[], [], ?_⟩
    rw [runFile, actOn_bind, program, read, w.say_nil]
    rfl
  | ok p =>
    change ∃ lines notices, (runFile path rebuild).actOn w =
      (p.check.mapError Failure.machine, w.say lines notices)
    cases checked : p.check with
    | error error =>
      refine ⟨[], [], ?_⟩
      simp only [runFile, actOn_bind, program, read, actOn_orFail, checked, w.say_nil]
      rfl
    | ok _ =>
      -- From here on nothing fails: the program is that of an expression.
      obtain ⟨e, rfl⟩ := Program.check_eq_ok_iff.1 checked
      exact ⟨_, _, actOn_runFile (programIn_eq_ok_iff.1 read) rebuild⟩

theorem readsOnly_decodeFile (path : String) (bound : Nat) (mode : Frame.Mode) :
    ReadsOnly (α := α) (decodeFile path bound mode) fun d : σ =>
      (FileSystem.read d path).mapError (.unreadable path) >>= fun bytes =>
        (slotsOf mode bytes).mapError .wire >>= fun slots =>
          (Frame.decode mode bound slots).value.mapError .frame >>= verdict α :=
  (readsOnly_read path).bind fun bytes => (readsOnly_readSlots mode bytes).bind fun _ =>
    (readsOnly_notify _).bind fun _ => (readsOnly_remarking _).bind fun _ =>
      (readsOnly_orFail _ _).bind readsOnly_report

variable (source : Random.Source)

theorem actOn_perform (c : Command) (w : World σ) :
    ∃ lines notices, (perform source c : Step α (StateM (World σ)) Unit).actOn w =
      (ending α source w.directory c,
        { w with directory := directoryAfter source w.directory c }.say lines notices) := by
  cases c with
  | help => exact readsOnly_usage w
  | generate seed depth output =>
    cases output with
    | none => exact (readsOnly_notify _).bind (fun _ => readsOnly_report _) w
    | some path =>
      have acted := actOn_generateAndReport (α := α) w source seed depth path
      rw [perform, acted, directoryAfter, ending]
      obtain ⟨_ | _, _⟩ :=
          FileSystem.write w.directory path (Expr.ofSeed source seed depth).compile.toBytes <;>
        exact ⟨_, _, rfl⟩
  | run input rebuild => exact readsOnly_runFile input rebuild w
  | disassemble input => exact readsOnly_disassemble input w
  | encode seed depth bound layout output =>
    have acted := actOn_encodeToFile (α := α) w source seed depth output bound layout
    rw [perform, acted, directoryAfter, ending]
    cases Frame.encode layout bound 0 (Expr.ofSeed source seed depth) with
    | error error => exact ⟨[], [], congrArg (Prod.mk _) w.say_nil.symm⟩
    | ok slots =>
      simp only [Except.mapError, bind, Except.bind]
      obtain ⟨_ | _, _⟩ := FileSystem.write w.directory output (Slot.Wire.write slots) <;>
        exact ⟨_, _, rfl⟩
  | decode input bound mode => exact readsOnly_decodeFile input bound mode w

end Commands

section Call

variable [Value α] [FileSystem σ] (source : Random.Source) (args : List String) (directory : σ)

theorem fst_actOn_steps (w : World σ) :
    ((steps α source args).actOn w).1 =
      (ofArgs (withoutVerbose args)).mapError .usage >>= ending α source w.directory := by
  rw [steps, actOn_bind, actOn_orFail]
  cases ofArgs (withoutVerbose args) with
  | error error => rfl
  | ok c =>
    obtain ⟨lines, notices, acted⟩ := actOn_perform (α := α) source c w
    exact congrArg Prod.fst acted

theorem callIn_of_error {error : UsageError} (setting : Option String)
    (refused : ofArgs (withoutVerbose args) = .error error) :
    let outcome := callIn α source args setting directory
    outcome.exitCode = 1 ∧ outcome.directory = directory := by
  rw [callIn_eq, steps, refused]
  exact ⟨rfl, rfl⟩

theorem callIn_of_ok {c : Command} (setting : Option String)
    (accepted : ofArgs (withoutVerbose args) = .ok c) :
    let outcome := callIn α source args setting directory
    outcome.exitCode = exitCode (ending α source directory c) ∧
      outcome.directory = directoryAfter source directory c := by
  obtain ⟨lines, notices, acted⟩ := actOn_perform (α := α) source c ⟨directory, #[], #[]⟩
  rw [callIn_of_actOn accepted acted]
  exact ⟨rfl, rfl⟩

end Call

end Command

end OneTwo
