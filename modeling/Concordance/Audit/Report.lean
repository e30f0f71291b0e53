import Concordance.Audit.Basic
import Concordance.Audit.Panel
import Concordance.Storage.FileSystem
import Concordance.Storage.Path

/-!
# Reports of audits

A report shows an audit in three boxes: the files, the numbers of the corpus, and the checks.

- `Audit.report`: the text of an audit.
- `Audit.ofDirectory`: the audit of the artifacts in a directory.
-/

namespace Concordance.Audit

/-- A number as eight hexadecimal digits. -/
def hex32 (n : UInt32) : String :=
  let digits := Nat.toDigits 16 n.toNat
  String.ofList (List.replicate (8 - digits.length) '0' ++ digits)

/-- The line of a file. -/
def fileRow (facts : FileFacts) : String :=
  Panel.row (" " ++ Panel.padRight facts.artifact.fileName 32
    ++ Panel.padLeft (Panel.size facts.bytes) 10 ++ "   crc32 " ++ hex32 facts.crc32)

/-- The numbers of the summary that are shown. -/
def shownStats : List String := ["totalWorks", "uniqueWords", "uniqueLemmata"]

/-- The line of a number of the summary, which is zero if it is missing. -/
def statRow (stats : Json) (key : String) : String :=
  let value := ((stats.get? key).bind Json.natural?).getD 0
  Panel.row (" " ++ Panel.padRight key 14 ++ Nat.repr value)

/-- The lines of the numbers of the summary, if it has any. -/
def statRows (summary : Json) : List String :=
  match summary.get? "stats" with
  | none => []
  | some stats => shownStats.map (statRow stats)

/-- The line of a check. -/
def checkRow (check : Check) : String :=
  Panel.row (" " ++ Panel.mark check.holds ++ " " ++ check.statement)

/-- A box of lines. -/
def box (label : String) (rows : List String) : String :=
  Panel.top label ++ String.join rows ++ Panel.bottom

/-- The text of an audit. -/
def report (audit : Audit) : String :=
  box "ARTIFACTS" (audit.files.map fileRow)
    ++ box "CORPUS"
      (Panel.row s!" tokens        {audit.tokenCount}" :: statRows audit.summary)
    ++ box "CHECKS" (audit.checks.map checkRow)

variable {m : Type → Type} [Monad m]

/-- Reads artifacts from a directory, one after the other. -/
def readArtifacts (files : FileSystem m) (directory : String) :
    List Artifact → ExceptT AuditError m (Artifact → ByteArray)
  | [] => return fun _ => ByteArray.empty
  | artifact :: artifacts => do
    let path := Path.join directory artifact.fileName
    match ← files.read path with
    | .error _ => throw (.unreadable path)
    | .ok bytes =>
      let later ← readArtifacts files directory artifacts
      return fun other => if other = artifact then bytes else later other

/-- The audit of the artifacts in a directory. -/
def ofDirectory (files : FileSystem m) (directory : String) : ExceptT AuditError m Audit := do
  let found ← readArtifacts files directory Artifact.all
  ExceptT.mk (pure (ofFiles found))

/-- What an audit of a directory prints, and whether it is passed. -/
def printed (directory : String) : Except AuditError Audit → String × Option AuditError
  | .error problem => ("", some problem)
  | .ok audit =>
    (audit.report, if audit.isConsistent then none else some (.inconsistent directory))

end Concordance.Audit
