/-!
# Why a file cannot be read or written

The causes are those of a POSIX system, which gives each a number.
-/

namespace Concordance

/-- Why a file operation failed. -/
inductive FileError where
  /-- Nothing has the path. -/
  | notFound
  /-- Something has the path already. -/
  | alreadyExists
  /-- A part of the path is used as a directory and is a file. -/
  | notADirectory
  /-- A directory is used as a file. -/
  | isADirectory
  /-- A name or the whole path is too long. -/
  | nameTooLong
  /-- The path holds a null character. -/
  | nullInPath
  /-- The bytes of a file are not the UTF-8 form of a text. -/
  | notUtf8
  /-- Any other cause, in the words of the system. -/
  | other (message : String)
  deriving DecidableEq, Repr

/-- The wording of a failed file operation. -/
def FileError.message : FileError → String
  | .notFound => "No such file or directory (os error 2)"
  | .alreadyExists => "File exists (os error 17)"
  | .notADirectory => "Not a directory (os error 20)"
  | .isADirectory => "Is a directory (os error 21)"
  | .nameTooLong => "File name too long (os error 36)"
  | .nullInPath => "file name contained an unexpected NUL byte"
  | .notUtf8 => "stream did not contain valid UTF-8"
  | .other message => message

end Concordance
