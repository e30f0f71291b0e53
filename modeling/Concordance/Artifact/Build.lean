import Concordance.Artifact.Basic
import Concordance.Corpus.Draft
import Concordance.Grammar.Lexicon
import Concordance.Storage.FileSystem
import Concordance.Work.Manifest

/-!
# Building from files

A build reads a manifest, its lexicon and its works, makes their corpus, and writes the artifacts
into a directory. The first thing that goes wrong ends it; files that were written before stay.
-/

namespace Concordance.Build

variable {m : Type → Type} [Monad m]

/-- Reads a file that holds a JSON value of some type. -/
def readFile {α : Type} (files : FileSystem m) (parse : String → Option α) (path : String) :
    ExceptT BuildError m α := do
  match ← (files.readText path).run with
  | .error cause => throw (.file cause)
  | .ok text =>
    match parse text with
    | none => throw .json
    | some value => return value

/-- Reads works in order. -/
def readWorks (files : FileSystem m) : List String → ExceptT BuildError m (List Work)
  | [] => return []
  | path :: paths => do
    let work ← readFile files Work.parse path
    return work :: (← readWorks files paths)

/-- Passes the failure of a file operation on. -/
def orFail {α : Type} (action : m (Except FileError α)) : ExceptT BuildError m α := do
  match ← action with
  | .error cause => throw (.file cause)
  | .ok value => return value

/-- Writes artifacts of a corpus into a directory. -/
def writeArtifacts (files : FileSystem m) (directory : String) (corpus : Corpus) :
    List Artifact → ExceptT BuildError m Unit
  | [] => return ()
  | artifact :: artifacts => do
    let bytes ← ExceptT.mk (pure (corpus.artifact artifact))
    orFail (files.write (Path.join directory artifact.fileName) bytes)
    writeArtifacts files directory corpus artifacts

/-- Writes all artifacts of a corpus into a directory, which is made if it is missing. -/
def store (files : FileSystem m) (directory : String) (corpus : Corpus) :
    ExceptT BuildError m Unit := do
  orFail (files.makeDirectories directory)
  writeArtifacts files directory corpus Artifact.all

/-- Builds the corpus of a manifest, whose paths start at its own directory, and stores it. -/
def run (files : FileSystem m) (manifestPath directory : String) (ratio : UInt32) :
    ExceptT BuildError m Corpus := do
  let base := (Path.parent? manifestPath).getD "."
  let manifest ← readFile files Manifest.parse manifestPath
  let lexicon ← readFile files Lexicon.parse (manifest.analysesPath base)
  let works ← readWorks files (manifest.workPaths base)
  let reader : Reader := ⟨BreakSet.default.tokenizer, lexicon.lookup⟩
  let corpus ← ExceptT.mk (pure (Corpus.ofWorks reader ratio works))
  store files directory corpus
  return corpus

end Concordance.Build
