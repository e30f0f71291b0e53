import Concordance.Contract
import Concordance.Storage.FileError

/-!
# Why a corpus cannot be built

A build is complete or stops at its first failure. Some failures point at the input, a few say
that the corpus has outgrown a format: `BuildError.isCapacity` tells the second kind.
-/

namespace Concordance

/-- Why a corpus cannot be built. -/
inductive BuildError where
  /-- A file could not be read or written. -/
  | file (cause : FileError)
  /-- A file does not hold the JSON value that it should. -/
  | json
  /-- A work has no words. -/
  | emptyWork (work : String)
  /-- A work has more or fewer section ids than rows. -/
  | rowIdMismatch (work : String) (rows rowIds : Nat)
  /-- A row's section id is empty, has an empty part, or repeats the one before it. -/
  | malformedSectionId (work previous id : String)
  /-- An author's work comes after a work of another author and other works of the author. -/
  | nonContiguousAuthor (author work : String)
  /-- A record would start beyond what a span can say. -/
  | offsetOverflow (offset : Nat)
  /-- A word has more records than a span can say. -/
  | lengthOverflow (word : String) (length : Nat)
  /-- There are more tokens than token indices. -/
  | tokenOverflow (max : Nat)
  /-- The text is longer than offsets can say. -/
  | textOverflow (bytes : Nat)
  /-- A posting list was given members that it does not take. -/
  | contract (violation : ContractViolation)
  deriving DecidableEq, Repr

namespace BuildError

/-- The wording of a failure. -/
def message : BuildError → String
  | .file cause => "IO error: " ++ cause.message
  | .json => "JSON error"
  | .emptyWork work => "Work '" ++ work ++ "' contains no word tokens"
  | .rowIdMismatch work rows rowIds =>
    "Work '" ++ work ++ s!"' has {rows} rows but {rowIds} row ids"
  | .malformedSectionId work previous id =>
    "Work '" ++ work ++ "' has malformed section id '" ++ id ++ "' (previous '" ++ previous ++ "')"
  | .nonContiguousAuthor author work =>
    "Works by author '" ++ author ++ "' are not contiguous: '" ++ work
      ++ "' follows another author"
  | .offsetOverflow offset => s!"Inflection offset {offset} does not fit in 24 bits"
  | .lengthOverflow word length =>
    "Word '" ++ word ++ s!"' has {length} distinct inflections; at most 255 fit"
  | .tokenOverflow max => s!"Corpus exceeds {max} tokens"
  | .textOverflow bytes => s!"Raw text reached {bytes} bytes; offsets must fit in 32 bits"
  | .contract violation => violation.message

/-- Whether the corpus has outgrown a format, as opposed to containing bad input. -/
def isCapacity : BuildError → Bool
  | .offsetOverflow _ | .lengthOverflow _ _ | .tokenOverflow _ | .textOverflow _ => true
  | _ => false

end BuildError

end Concordance
