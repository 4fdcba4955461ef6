import OneTwo.Diagnostic

/-!
What a command does to the world: it reads and writes whole files, prints lines, and gives notices.
A notice is a line of its own or a diagnostic; which diagnostics are shown is decided where notices
are rendered, so a command cannot depend on it.
-/

namespace OneTwo

inductive FileError where
  | notFound
  | isDirectory
  | other (text : String)
  deriving DecidableEq

def FileError.message : FileError → String
  | notFound => "No such file or directory (os error 2)"
  | isDirectory => "Is a directory (os error 21)"
  | other text => text

inductive Notice where
  | line (text : String)
  | remark (record : Diagnostic)
  deriving DecidableEq

def Diagnostic.line (d : Diagnostic) : String :=
  "[" ++ d.level.name.pushn ' ' (5 - d.level.name.length) ++ "] " ++ d.source ++ ": " ++ d.text

def Notice.shown? (limit : Option Level) : Notice → Option String
  | line text => some text
  | remark record => if record.shownAt limit then some record.line else none

class Console (m : Type → Type) where
  read : String → m (Except FileError (List UInt8))
  write : String → List UInt8 → m (Except FileError Unit)
  print : String → m Unit
  notify : Notice → m Unit

end OneTwo
