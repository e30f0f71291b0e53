import Std.Data.HashMap
import Concordance.Storage.FileSystem
import Concordance.Storage.Path

/-!
# Trees of files in memory

A `FileTree` holds files and directories below a root, and one of the directories is where paths
start. The tree follows paths as a POSIX system does: part by part, so that each part but the last
has to be a directory.

- `FileTree.locate`: what a path leads to.
- `FileTree.read`, `FileTree.write`, `FileTree.makeDirectory`, `FileTree.isDirectory`: the
  operations of a file system, which `FileTree.fileSystem` puts together.
-/

namespace Concordance

/-- What a name in a directory stands for. -/
inductive FileNode where
  /-- A file with its bytes. -/
  | file (bytes : ByteArray)
  /-- A directory. -/
  | directory

/-- Files and directories by the names on the way to them from the root. -/
structure FileTree where
  /-- The files and directories, the root apart. -/
  nodes : Std.HashMap (List String) FileNode
  /-- The directory where paths start that do not start at the root. -/
  working : List String

namespace FileTree

/-- What a path leads to. -/
inductive Location where
  /-- A directory. -/
  | directory (names : List String)
  /-- A file. -/
  | file (names : List String) (bytes : ByteArray)
  /-- A name that a directory does not have. -/
  | vacant (names : List String)

/-- The tree with nothing but a directory where paths start, and the directories it is in. -/
def empty (working : List String) : FileTree where
  nodes := Std.HashMap.ofList
    ((List.range working.length).map fun index => (working.take (index + 1), .directory))
  working := working

/-- The longest name, in bytes. -/
def maxName : Nat := 255

/-- The longest path, in bytes. -/
def maxPath : Nat := 4095

/-- Follows the parts of a path from a directory. The root is the directory that it is in. -/
def follow (tree : FileTree) (here : List String) : List String → Except FileError Location
  | [] => .ok (.directory here)
  | part :: rest =>
    if part = "" ∨ part = "." then tree.follow here rest
    else if part = ".." then tree.follow here.dropLast rest
    else if maxName < part.utf8ByteSize then .error .nameTooLong
    else
      let names := here ++ [part]
      match tree.nodes[names]? with
      | some .directory => tree.follow names rest
      | some (.file bytes) =>
        if rest = [] then .ok (.file names bytes) else .error .notADirectory
      | none => if rest = [] then .ok (.vacant names) else .error .notFound

/-- Refuses texts that are no path. -/
def checkPath (path : String) : Except FileError Unit :=
  if path.any (· = '\x00') then .error .nullInPath
  else if path = "" then .error .notFound
  else if maxPath < path.utf8ByteSize then .error .nameTooLong
  else .ok ()

/-- Where a path starts. -/
def start (tree : FileTree) (path : String) : List String :=
  if path.startsWith "/" then [] else tree.working

/-- What a path leads to. -/
def locate (tree : FileTree) (path : String) : Except FileError Location := do
  checkPath path
  tree.follow (tree.start path) (Path.parts path)

/-- The bytes of a file. -/
def read (tree : FileTree) (path : String) : Except FileError ByteArray := do
  match ← tree.locate path with
  | .file _ bytes => return bytes
  | .vacant _ => throw .notFound
  | .directory _ => throw .isADirectory

/-- Makes a file or replaces its bytes. -/
def write (tree : FileTree) (path : String) (bytes : ByteArray) : Except FileError FileTree := do
  match ← tree.locate path with
  | .file names _ | .vacant names =>
    return { tree with nodes := tree.nodes.insert names (.file bytes) }
  | .directory _ => throw .isADirectory

/-- Makes a directory. Slashes at the end of its path are of no account. -/
def makeDirectory (tree : FileTree) (path : String) : Except FileError FileTree := do
  checkPath path
  let parts := ((Path.parts path).reverse.dropWhile (· = "")).reverse
  match ← tree.follow (tree.start path) parts with
  | .vacant names => return { tree with nodes := tree.nodes.insert names .directory }
  | .file .. | .directory _ => throw .alreadyExists

/-- Whether a path leads to a directory. -/
def isDirectory (tree : FileTree) (path : String) : Bool :=
  match tree.locate path with
  | .ok (.directory _) => true
  | _ => false

/-- The outcome of an operation and the tree after it, which is the same if the operation failed. -/
def outcome (tree : FileTree) : Except FileError FileTree → Except FileError Unit × FileTree
  | .ok changed => (.ok (), changed)
  | .error cause => (.error cause, tree)

/-- The file system of a tree that operations change. -/
def fileSystem : FileSystem (StateM FileTree) where
  read path := fun tree => (tree.read path, tree)
  write path bytes := fun tree => tree.outcome (tree.write path bytes)
  makeDirectory path := fun tree => tree.outcome (tree.makeDirectory path)
  isDirectory path := fun tree => (tree.isDirectory path, tree)

end FileTree

end Concordance
