import OneTwo.Command.FileSystem
import OneTwo.Command.Perform

/-!
Calls in a world that is a value: a directory of a file system, what has been printed, and the
notices given.
-/

namespace OneTwo

structure World (σ : Type) where
  directory : σ
  printed : Array String
  notices : Array Notice

variable {σ : Type} [FileSystem σ]

instance : Console (StateM (World σ)) where
  read path := do return FileSystem.read (← get).directory path
  write path bytes := do
    let (result, directory) := FileSystem.write (← get).directory path bytes
    modify fun w => { w with directory }
    return result
  print line := modify fun w => { w with printed := w.printed.push line }
  notify notice := modify fun w => { w with notices := w.notices.push notice }

structure Outcome (σ : Type) where
  exitCode : Nat
  printed : List String
  noticed : List String
  directory : σ

def Command.callIn (α : Type) [Value α] (source : Random.Source) (args : List String)
    (setting : Option String) (directory : σ) : Outcome σ :=
  let steps : StateM (World σ) Nat := Command.call α source args
  let result := steps.run ⟨directory, #[], #[]⟩
  { exitCode := result.1
    printed := result.2.printed.toList
    noticed := result.2.notices.toList.filterMap (Notice.shown? (verbosity args setting))
    directory := result.2.directory }

end OneTwo
