import Concordance.Artifact.Basic
import Concordance.Bytes.Checksum
import Concordance.Json.Parser

/-!
# Auditing stored corpora

An audit looks at the artifacts of a stored corpus without building it again: what they are, and
whether they agree with each other. Artifacts that cannot be read at all are an `AuditError`;
artifacts that disagree are reported by a failed check.

- `Audit.ofFiles`: the audit of five files.
-/

namespace Concordance

/-- Why there is no audit, or why it is not passed. -/
inductive AuditError where
  /-- A file cannot be read. -/
  | unreadable (path : String)
  /-- The text is not in UTF-8. -/
  | notUtf8
  /-- A word stream does not decode. -/
  | malformed (cause : DecodeError)
  /-- The summary is not a JSON value. -/
  | json
  /-- Some checks failed. -/
  | inconsistent (directory : String)
  deriving DecidableEq, Repr

/-- The wording of a failed audit. -/
def AuditError.message : AuditError → String
  | .unreadable path => "Failed to read " ++ path
  | .notUtf8 => "Raw text is not UTF-8"
  | .malformed cause => cause.message
  | .json => "JSON error"
  | .inconsistent directory => directory ++ " is inconsistent"

/-- The size and the checksum of a file. -/
structure FileFacts where
  /-- The artifact that the file holds. -/
  artifact : Artifact
  /-- The number of bytes. -/
  bytes : Nat
  /-- The CRC-32 checksum. -/
  crc32 : UInt32
  deriving DecidableEq, Repr

/-- A statement about artifacts and whether it holds. -/
structure Check where
  /-- The statement. -/
  statement : String
  /-- Whether it holds. -/
  holds : Bool
  deriving DecidableEq, Repr

/-- What an audit finds. -/
structure Audit where
  /-- The files. -/
  files : List FileFacts
  /-- The number of tokens by their places in the text. -/
  tokenCount : Nat
  /-- The checks in the order in which they are shown. -/
  checks : List Check
  /-- The summary. -/
  summary : Json

namespace Audit

/-- Whether all checks hold. -/
def isConsistent (audit : Audit) : Bool := audit.checks.all (·.holds)

/-- The size and the checksum of an artifact's bytes. -/
def factsOf (files : Artifact → ByteArray) (artifact : Artifact) : FileFacts :=
  let bytes := files artifact
  ⟨artifact, bytes.size, Checksum.crc32 bytes.data.toList⟩

/-- The words of an artifact. -/
def wordsOf (bytes : ByteArray) : Except AuditError (List UInt32) :=
  (WordStream.decode bytes.data.toList).mapError .malformed

/-- The JSON value of an artifact. Strings have to be texts, numbers finite and nesting bounded. -/
def jsonOf (bytes : ByteArray) : Except AuditError Json :=
  match Json.parseBytes bytes with
  | some value => if value.isPlain then .ok value else .error .json
  | none => .error .json

/-- Whether no number is followed by a smaller one. -/
def neverFalls : List UInt32 → Bool
  | a :: b :: rest => a ≤ b && neverFalls (b :: rest)
  | _ => true

/-- Whether the records of a written span lie in a buffer of `count` records. -/
def spanFits (count : Nat) (entry : UInt32) : Bool :=
  let span := RecordSpan.unpack entry
  span.offset.toNat + span.length.toNat ≤ count

/-- The checks of artifacts by what they hold. -/
def checksOf (textBytes : Nat) (starts records spans : List UInt32) (summary : Json) :
    List Check :=
  let tokenCount := starts.length / 2
  [⟨"token starts come in pairs", starts.length % 2 == 0⟩,
    ⟨"token starts ascend within raw text",
      neverFalls starts && starts.getLast?.all (·.toNat ≤ textBytes)⟩,
    ⟨"one inflection entry per token", spans.length == tokenCount⟩,
    ⟨"inflection word 0 is reserved", records.head? == some 0⟩,
    ⟨"inflection entries stay inside buffer", spans.all (spanFits records.length)⟩,
    ⟨"stats agree on token count",
      (summary.get? "numTokens").bind Json.natural? == some tokenCount⟩]

/-- The audit of artifacts. -/
def ofFiles (files : Artifact → ByteArray) : Except AuditError Audit := do
  let text ← match String.fromUTF8? (files .text) with
    | some text => pure text
    | none => throw .notUtf8
  let starts ← wordsOf (files .tokenStarts)
  let records ← wordsOf (files .records)
  let spans ← wordsOf (files .recordSpans)
  let summary ← jsonOf (files .summary)
  return {
    files := Artifact.all.map (factsOf files)
    tokenCount := starts.length / 2
    checks := checksOf text.utf8ByteSize starts records spans summary
    summary }

end Audit

end Concordance
