import Concordance.Command.Run

/-!
# The program

The command line on the file system of the machine.
-/

namespace Concordance

/-- The cause of a failed operation of the machine. -/
def FileError.ofSystem (error : IO.Error) : FileError :=
  match error with
  | .noFileOrDirectory .. => .notFound
  | .alreadyExists .. => .alreadyExists
  | .inappropriateType _ 20 _ => .notADirectory
  | .inappropriateType _ 21 _ => .isADirectory
  | _ => .other error.toString

/-- An operation of the machine with its failure as a value. -/
def attempt {α : Type} (action : IO α) : IO (Except FileError α) := do
  try
    return .ok (← action)
  catch error =>
    return .error (.ofSystem error)

/-- Whether a path leads to a directory of the machine. A directory has its own dot, so that it can
neither be made nor is it missing; nothing else has one. -/
def isMachineDirectory (path : String) : IO Bool := do
  match ← attempt (IO.FS.createDir (path ++ "/.")) with
  | .error .alreadyExists => return true
  | _ => return false

/-- The file system of the machine. -/
def machine : FileSystem IO where
  read path := attempt (IO.FS.readBinFile path)
  write path bytes := attempt (IO.FS.writeBinFile path bytes)
  makeDirectory path := attempt (IO.FS.createDir path)
  isDirectory := isMachineDirectory

end Concordance

/-- Does what the command line asks for. -/
def main (arguments : List String) : IO UInt32 := do
  let outcome ← Concordance.Command.perform Concordance.machine arguments
  IO.print outcome.output
  match outcome.failure with
  | none => pure ()
  | some line => IO.eprintln line
  return outcome.exitCode.toUInt32
