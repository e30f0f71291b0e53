/-!
# Paths

A path names a file by the names of directories with slashes between them. Joining puts a path
behind a directory's and changes nothing else: parts such as `..` stay for the file system to
follow.

- `Path.join`: the path of something below a directory.
- `Path.parent?`: the directory that a path is in.
- `Path.ancestors`: a path, the directory it is in, the directory that one is in, and so on.
-/

namespace Concordance.Path

/-- The parts between the slashes of a path, empty ones included. -/
def parts (path : String) : List String := (path.toList.splitOn '/').map String.ofList

/-- The path of `name` below the directory `base`. A path from the root stays as it is, and
nothing is put in front of a path below the empty one. -/
def join (base name : String) : String :=
  if name.startsWith "/" then name
  else if base.isEmpty || base.endsWith "/" then base ++ name
  else base ++ "/" ++ name

/-- Drops the parts at the end of a path that name nothing. The first part stays, as it may stand
for the root or for the directory where paths start. -/
def trimParts (parts : List String) : List String :=
  match parts with
  | [] => []
  | first :: rest =>
    first :: (rest.reverse.dropWhile fun part => part = "" || part = ".").reverse

/-- The path of some parts. -/
def ofParts : List String → String
  | [""] => "/"
  | parts => String.intercalate "/" parts

/-- The directory that a path is in. The root and the empty path are in no directory. -/
def parent? (path : String) : Option String :=
  match trimParts (parts path) with
  | [] => none
  | [""] => none
  | trimmed => some (ofParts (trimParts trimmed.dropLast))

/-- At most `count` paths, each of which is the directory that the one before it is in. The root and
the empty path, which is the directory where paths start, are not among them. -/
def ancestorsWithin : Nat → String → List String
  | 0, _ => []
  | count + 1, path =>
    match parent? path with
    | none => []
    | some parent => path :: ancestorsWithin count parent

/-- A path and all directories on the way to it, the innermost first. Each of them has fewer parts
than the one before it. -/
def ancestors (path : String) : List String := ancestorsWithin (parts path).length path

end Concordance.Path
