import Concordance.Storage.FileError
import Concordance.Storage.Path

/-!
# File systems

What the library needs of a file system, whatever it is: a disk, or a tree in memory.

- `FileSystem.readText`: the text of a file.
- `FileSystem.makeDirectories`: makes a directory together with those it is in.
-/

namespace Concordance

/-- The operations of a file system. -/
structure FileSystem (m : Type → Type) where
  /-- The bytes of a file. -/
  read : String → m (Except FileError ByteArray)
  /-- Makes a file or replaces its bytes. -/
  write : String → ByteArray → m (Except FileError Unit)
  /-- Makes a directory in a directory that is there. -/
  makeDirectory : String → m (Except FileError Unit)
  /-- Whether a path leads to a directory. -/
  isDirectory : String → m Bool

namespace FileSystem

variable {m : Type → Type} [Monad m]

/-- The text of a file. -/
def readText (files : FileSystem m) (path : String) : ExceptT FileError m String := do
  let bytes ← ExceptT.mk (files.read path)
  match String.fromUTF8? bytes with
  | some text => return text
  | none => throw .notUtf8

/-- A directory that was to be made is as good as made if it is there. -/
def orPresent (files : FileSystem m) (path : String) :
    Except FileError Unit → m (Except FileError Unit)
  | .ok () => return .ok ()
  | .error cause => do
    if ← files.isDirectory path then return .ok () else return .error cause

/-- Makes the first of some directories, each of which is in the next one. Those further out are
made only if the way to it leads to nothing. -/
def makeFirst (files : FileSystem m) : List String → m (Except FileError Unit)
  | [] => return .ok ()
  | path :: outer => do
    match ← files.makeDirectory path with
    | .error .notFound =>
      match ← files.makeFirst outer with
      | .error cause => return .error cause
      | .ok () => files.orPresent path (← files.makeDirectory path)
    | made => files.orPresent path made

/-- Makes a directory and those it is in, as far as they are missing. A path may go through a
directory that is made on its behalf and leave it again, but it cannot end in the dot of a directory
that is yet to be made: the dot is not a directory of its own, and nothing is there for it to
name. -/
def makeDirectories (files : FileSystem m) (path : String) : m (Except FileError Unit) :=
  files.makeFirst (Path.ancestors path)

end FileSystem

end Concordance
