import OneTwo.Command.World

/-!
Steps in a world that is a value. A step comes to a result or to a failure, and to a world that is
the former one with lines printed and notices given, and with the directory that a write has left,
if there was one. Each step has one equation that says so, and `actOn_bind` opens a sequence of
steps; what is seen of a whole call is read off its steps by `callIn_eq`.
-/

namespace OneTwo

variable {σ : Type}

def World.say (w : World σ) (lines : List String) (notices : List Notice) : World σ :=
  { w with printed := w.printed ++ lines, notices := w.notices ++ notices }

namespace World

variable (w : World σ) (lines more : List String) (notices further : List Notice)

@[simp] theorem directory_say : (w.say lines notices).directory = w.directory := rfl

@[simp] theorem toList_printed_say :
    (w.say lines notices).printed.toList = w.printed.toList ++ lines := by
  simp [say]

@[simp] theorem toList_notices_say :
    (w.say lines notices).notices.toList = w.notices.toList ++ notices := by
  simp [say]

theorem say_say :
    (w.say lines notices).say more further = w.say (lines ++ more) (notices ++ further) := by
  simp [say, ← Array.toList_inj]

end World

namespace Command

variable {α β γ : Type}

namespace Step

def actOn (x : Step α (StateM (World σ)) β) (w : World σ) : Except (Failure α) β × World σ :=
  x.run.run w

variable (w : World σ)

theorem actOn_pure (value : β) :
    (pure value : Step α (StateM (World σ)) β).actOn w = (.ok value, w) := rfl

theorem actOn_throw (failure : Failure α) :
    (throw failure : Step α (StateM (World σ)) β).actOn w = (.error failure, w) := rfl

theorem actOn_bind (x : Step α (StateM (World σ)) β) (f : β → Step α (StateM (World σ)) γ) :
    (x >>= f).actOn w =
      match x.actOn w with
      | (.ok value, v) => (f value).actOn v
      | (.error failure, v) => (.error failure, v) := by
  change (ExceptT.bindCont f (x.actOn w).1).run (x.actOn w).2 = _
  obtain ⟨_ | _, _⟩ := x.actOn w <;> rfl

theorem actOn_orFail {ε : Type} (failure : ε → Failure α) (x : Except ε β) :
    (orFail failure x : Step α (StateM (World σ)) β).actOn w = (x.mapError failure, w) := by
  cases x <;> rfl

theorem actOn_lift (x : StateM (World σ) β) :
    actOn (ExceptT.lift x : Step α (StateM (World σ)) β) w = (.ok (x.run w).1, (x.run w).2) := rfl

variable [FileSystem σ]

theorem actOn_print (line : String) :
    (print line : Step α (StateM (World σ)) Unit).actOn w = (.ok (), w.say [line] []) := rfl

theorem actOn_notify (notice : Notice) :
    (notify notice : Step α (StateM (World σ)) Unit).actOn w = (.ok (), w.say [] [notice]) := rfl

theorem actOn_forM_notify {ι : Type} (notice : ι → Notice) (items : List ι) :
    (items.forM fun item => notify (notice item) : Step α (StateM (World σ)) Unit).actOn w =
      (.ok (), w.say [] (items.map notice)) := by
  induction items generalizing w with
  | nil => rfl
  | cons item items ih =>
    change (notify (notice item) >>= fun _ => items.forM _ :
      Step α (StateM (World σ)) Unit).actOn w = _
    rw [actOn_bind, actOn_notify]
    exact (ih _).trans (congrArg (Prod.mk _) (w.say_say _ _ _ _))

theorem actOn_remarking (x : Logged β) :
    (remarking x : Step α (StateM (World σ)) β).actOn w =
      (.ok x.value, w.say [] (x.records.map .remark)) := by
  rw [remarking, actOn_bind, actOn_forM_notify]
  rfl

theorem actOn_read (path : String) :
    (read path : Step α (StateM (World σ)) (List UInt8)).actOn w =
      ((FileSystem.read w.directory path).mapError (.unreadable path), w) := by
  rw [read, actOn_bind, actOn_lift]
  exact actOn_orFail w _ _

theorem run_write (path : String) (bytes : List UInt8) :
    (Console.write path bytes : StateM (World σ) (Except FileError Unit)).run w =
      ((FileSystem.write w.directory path bytes).1,
        { w with directory := (FileSystem.write w.directory path bytes).2 }) := rfl

theorem actOn_write (path : String) (count : Nat) (bytes : List UInt8) :
    (write path count bytes : Step α (StateM (World σ)) Unit).actOn w =
      match FileSystem.write w.directory path bytes with
      | (.ok (), directory) =>
        (.ok (), { w with directory }.say [] [.line s!"wrote {count} tokens -> {path}"])
      | (.error error, directory) => (.error (.unwritable path error), { w with directory }) := by
  rw [write, actOn_bind, actOn_lift, run_write]
  obtain ⟨_ | _, directory⟩ := FileSystem.write w.directory path bytes <;> rfl

end Step

def exitCode : Except (Failure α) Unit → Nat
  | .ok () => 0
  | .error failure => failure.exitCode

section Call

variable [Value α] [FileSystem σ]

def steps (α : Type) [Value α] (source : Random.Source) (args : List String) :
    Step α (StateM (World σ)) Unit := do
  perform source (← Step.orFail .usage (ofArgs (withoutVerbose args)))

def lastLines : Except (Failure α) Unit → List String
  | .ok () => []
  | .error failure => failure.lines

def seen (limit : Option Level) (ended : Except (Failure α) Unit × World σ) : Outcome σ :=
  { exitCode := exitCode ended.1
    printed := ended.2.printed.toList
    noticed := (ended.2.notices.toList ++ (lastLines ended.1).map Notice.line).filterMap
      (Notice.shown? limit)
    directory := ended.2.directory }

theorem run_forM_notify (lines : List String) (w : World σ) :
    (lines.forM fun line => Console.notify (.line line) : StateM (World σ) Unit).run w =
      ((), w.say [] (lines.map Notice.line)) := by
  induction lines generalizing w with
  | nil => rfl
  | cons line lines ih =>
    exact (ih _).trans (congrArg (Prod.mk _) (w.say_say [] [] [.line line] _))

theorem run_call (source : Random.Source) (args : List String) (w : World σ) :
    (call α source args : StateM (World σ) Nat).run w =
      let (ended, v) := (steps α source args).actOn w
      (exitCode ended, v.say [] ((lastLines ended).map Notice.line)) := by
  change (match (steps α source args).actOn w with
    | (ended, v) => (match ended with
      | .ok () => return 0
      | .error failure => do
        failure.lines.forM fun line => Console.notify (.line line)
        return failure.exitCode : StateM (World σ) Nat).run v) = _
  obtain ⟨failure | _, v⟩ := (steps α source args).actOn w
  · exact congrArg (fun ended : Unit × World σ => (failure.exitCode, ended.2)) (run_forM_notify _ v)
  · rfl

theorem callIn_eq (source : Random.Source) (args : List String) (setting : Option String)
    (directory : σ) :
    callIn α source args setting directory =
      seen (verbosity args setting) ((steps α source args).actOn ⟨directory, #[], #[]⟩) := by
  simp [callIn, run_call, seen]

theorem callIn_of_actOn {source : Random.Source} {args : List String} {c : Command}
    {setting : Option String} {directory after : σ} {ended : Except (Failure α) Unit}
    {lines : List String} {notices : List Notice}
    (accepted : ofArgs (withoutVerbose args) = .ok c)
    (acted : (perform source c : Step α (StateM (World σ)) Unit).actOn ⟨directory, #[], #[]⟩ =
      (ended, World.say ⟨after, #[], #[]⟩ lines notices)) :
    callIn α source args setting directory =
      { exitCode := exitCode ended
        printed := lines
        noticed := (notices ++ (lastLines ended).map Notice.line).filterMap
          (Notice.shown? (verbosity args setting))
        directory := after } := by
  have same : (steps α source args).actOn ⟨directory, #[], #[]⟩ =
      (perform source c : Step α (StateM (World σ)) Unit).actOn ⟨directory, #[], #[]⟩ := by
    rw [steps, accepted]
    rfl
  rw [callIn_eq, same, acted]
  simp [seen]

end Call

end Command

end OneTwo
