import Std.Data.HashMap
import Concordance.Ascending
import Concordance.Forms.Span
import Concordance.Grammar.Record

/-!
# The table of word forms

The records of all tokens share one entry for each distinct form:

```text
records:  [0][a₀ a₁ a₂][b₀][c₀ c₁] …       record 0 is reserved
tokens:   (1,3) (4,1) (1,3) (0,0) …         offset and length for each token
```

- `FormTable.add`: takes one more token. The analyses of its form are asked for only when the form
  is new, and a form whose records do not fit leaves no trace.
- `FormTable.recordsAt?`: the records of a span.

Forms without grammatical values have the empty span at offset 0.
-/

namespace Concordance

/-- What is known about a form. -/
structure FormEntry where
  /-- The headwords of the form's analyses in ascending order, each once. -/
  headwords : List String
  /-- The records of the form's analyses. -/
  span : RecordSpan
  deriving DecidableEq, Repr

/-- The forms that have come so far, and the form of every token. -/
structure FormTable where
  /-- The records of all forms, one after the other. -/
  records : Array Record
  /-- The span of each token's records. -/
  tokenSpans : Array RecordSpan
  /-- What is known about each form. -/
  entries : Std.HashMap String FormEntry

namespace FormTable

/-- The table without tokens. Its only record is the reserved one. -/
def empty : FormTable := ⟨#[0], #[], ∅⟩

/-- Makes an entry for a form and puts its records behind those of the forms before it. -/
def allot (table : FormTable) (form : String) (analyses : List Analysis) :
    Except BuildError (FormTable × FormEntry) :=
  let headwords := ascending (analyses.map (·.headword))
  let records : List Record := ascending (analyses.flatMap Analysis.records)
  if records = [] ∨ records = [0] then
    let entry := ⟨headwords, .empty⟩
    .ok ({ table with entries := table.entries.insert form entry }, entry)
  else
    let offset := table.records.size
    if RecordSpan.offsetLimit ≤ offset then .error (.offsetOverflow offset)
    else if RecordSpan.lengthLimit ≤ records.length then
      .error (.lengthOverflow form records.length)
    else
      let entry := ⟨headwords, ⟨UInt32.ofNat offset, UInt32.ofNat records.length⟩⟩
      .ok ({ table with
        records := table.records ++ records
        entries := table.entries.insert form entry }, entry)

/-- Takes one more token of a form that has an entry. -/
def addToken (table : FormTable) (entry : FormEntry) : FormTable :=
  { table with tokenSpans := table.tokenSpans.push entry.span }

/-- Takes one more token of a form. `analyze` gives the analyses of a form and is consulted only
when the form is new. -/
def addWith {m : Type → Type} [Monad m] (analyze : String → m (List Analysis))
    (table : FormTable) (form : String) : m (Except BuildError (FormTable × FormEntry)) := do
  match table.entries[form]? with
  | some entry => return .ok (table.addToken entry, entry)
  | none =>
    let analyses ← analyze form
    return (table.allot form analyses).map fun (table, entry) => (table.addToken entry, entry)

/-- Takes one more token of a form when analyses are a function of the form. -/
def add (analyze : String → List Analysis) (table : FormTable) (form : String) :
    Except BuildError (FormTable × FormEntry) :=
  Id.run (table.addWith analyze form)

/-- What is known about a form that has come. -/
def entry? (table : FormTable) (form : String) : Option FormEntry := table.entries[form]?

/-- The headwords of a form; none if it has not come. -/
def headwords (table : FormTable) (form : String) : List String :=
  ((table.entry? form).map (·.headwords)).getD []

/-- The records of a span, if it lies inside the buffer. -/
def recordsAt? (table : FormTable) (span : RecordSpan) : Option (List Record) :=
  let stop := span.offset.toNat + span.length.toNat
  if stop ≤ table.records.size then
    some (table.records.extract span.offset.toNat stop).toList
  else none

/-- The records of a token, if it has come. -/
def tokenRecords? (table : FormTable) (token : Nat) : Option (List Record) := do
  table.recordsAt? (← table.tokenSpans[token]?)

/-- The number of tokens. -/
def tokenCount (table : FormTable) : Nat := table.tokenSpans.size

/-- The number of distinct forms. -/
def formCount (table : FormTable) : Nat := table.entries.size

/-- The written spans of all tokens. -/
def spanTable (table : FormTable) : Except BuildError (List UInt32) :=
  table.tokenSpans.toList.mapM RecordSpan.pack

end FormTable

end Concordance
