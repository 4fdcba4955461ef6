import OneTwo.Command.Perform

/-!
The command line over real files, standard output and standard error. Everything that it decides is
decided in `Command.call`; here are the effects alone.
-/

namespace OneTwo

/-- The number of an error of the operating system, which may come with its sign reversed. -/
def osError (code : UInt32) : Nat :=
  if code < 0x80000000 then code.toNat else UInt32.size - code.toNat

def FileError.ofError : IO.Error → FileError
  | .noFileOrDirectory .. => .notFound
  | .inappropriateType _ code details =>
    if osError code = 21 then .isDirectory
    else .other s!"{details.capitalize} (os error {osError code})"
  | .permissionDenied _ code details =>
    .other s!"{details.capitalize} (os error {osError code})"
  | error => .other (toString error)

instance : Console (ReaderT (Option Level) IO) where
  read path := fun _ => do
    match ← (IO.FS.readBinFile path).toBaseIO with
    | .ok bytes => return .ok bytes.toList
    | .error error => return .error (.ofError error)
  write path bytes := fun _ => do
    match ← (IO.FS.writeBinFile path ⟨bytes.toArray⟩).toBaseIO with
    | .ok () => return .ok ()
    | .error error => return .error (.ofError error)
  print line := fun _ => IO.println line
  notify notice := fun limit =>
    match notice.shown? limit with
    | some line => IO.eprintln line
    | none => return ()

end OneTwo

def main (args : List String) : IO UInt32 := do
  let limit := OneTwo.Command.verbosity args (← IO.getEnv "TWOCALC_LOG")
  let call : ReaderT (Option OneTwo.Level) IO Nat := OneTwo.Command.call Float .chaCha args
  return .ofNat (← call limit)
