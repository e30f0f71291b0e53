import Concordance.Artifact.Build
import Concordance.Audit.Report
import Concordance.Command.Arguments

/-!
# Running commands

`Command.perform` does what a command line asks for on some file system. What is printed and how
the program ends are an `Outcome`: the exit code is 0 after success, 1 after a failure, which is
told on one line, and 2 if the command line makes no request.
-/

namespace Concordance

/-- What a run prints and how it ends. -/
structure Outcome where
  /-- The exit code. -/
  exitCode : UInt8
  /-- The text on standard output. -/
  output : String
  /-- The failure that is told on standard error. -/
  failure : Option String
  deriving DecidableEq, Repr

namespace Outcome

/-- The outcome of something that may have failed after it printed a text. -/
def ofFailure (output : String) : Option String → Outcome
  | none => ⟨0, output, none⟩
  | some message => ⟨1, output, some ("❌ " ++ message)⟩

end Outcome

namespace Command

/-- The description of the command line. -/
def usage : String :=
  "Usage:\n  build -m MANIFEST -o OUTPUT [--dense-ratio RATIO]\n  inspect DIRECTORY\n"

/-- The name and the version of the program. -/
def version : String := "verbum 0.1.0\n"

variable {m : Type → Type} [Monad m]

/-- Runs a command. -/
def run (files : FileSystem m) : Command → m Outcome
  | .build manifest output ratio => do
    match ← (Build.run files manifest output ratio).run with
    | .ok _ => return .ofFailure "" none
    | .error problem => return .ofFailure "" (some problem.message)
  | .inspect directory => do
    let found ← (Audit.ofDirectory files directory).run
    let (output, problem) := Audit.printed directory found
    return .ofFailure output (problem.map (·.message))

/-- Does what a command line asks for. -/
def perform (files : FileSystem m) (arguments : List String) : m Outcome :=
  match parse arguments with
  | .error problem => return ⟨2, "", some ("error: " ++ problem.message ++ "\n\n" ++ usage)⟩
  | .ok .help => return ⟨0, usage, none⟩
  | .ok .version => return ⟨0, version, none⟩
  | .ok (.run command) => command.run files

end Command

end Concordance
