import Concordance.Forms.Table

/-!
# A table that is held in a state

Taking a token changes a table in up to three places: records are put behind those of other forms,
the entry is stored under its form, and the token gets its span. When the table is held in a state,
it stays as it is where a call fails, so that it matters what has been changed by then.

- `FormTable.addInPlace`: `FormTable.addWith` on a table in a state.
- `FormTable.Request`, `FormTable.serve`: a request to take a token or to look something up.
- `FormTable.serveAll`: requests one after the other.
-/

namespace Concordance.FormTable

section

variable {m : Type → Type} [Monad m]

/-- Makes an entry for a form and puts its records behind those of the forms before it. The entry is
not stored. -/
def allotInPlace (analyze : String → m (List Analysis)) (form : String) :
    ExceptT BuildError (StateT FormTable m) FormEntry := do
  let analyses ← analyze form
  let headwords := ascending (analyses.map (·.headword))
  let records : List Record := ascending (analyses.flatMap Analysis.records)
  if records = [] ∨ records = [0] then
    return ⟨headwords, .empty⟩
  let offset := (← get).records.size
  if RecordSpan.offsetLimit ≤ offset then
    throw (.offsetOverflow offset)
  if RecordSpan.lengthLimit ≤ records.length then
    throw (.lengthOverflow form records.length)
  modify fun table => { table with records := table.records ++ records }
  return ⟨headwords, UInt32.ofNat offset, UInt32.ofNat records.length⟩

/-- The entry of a form. A new form gets one, which is stored. -/
def entryInPlace (analyze : String → m (List Analysis)) (form : String) :
    ExceptT BuildError (StateT FormTable m) FormEntry := do
  match (← get).entries[form]? with
  | some entry => return entry
  | none =>
    let entry ← allotInPlace analyze form
    modify fun table => { table with entries := table.entries.insert form entry }
    return entry

/-- Takes one more token of a form. -/
def addInPlace (analyze : String → m (List Analysis)) (form : String) :
    ExceptT BuildError (StateT FormTable m) FormEntry := do
  let entry ← entryInPlace analyze form
  modify (·.addToken entry)
  return entry

end

/-! ## Requests -/

/-- What can be looked up in a table. -/
inductive Lookup where
  /-- What is known about a form. -/
  | entry (form : String)
  /-- The headwords of a form. -/
  | headwords (form : String)
  /-- The records of a span. -/
  | records (span : RecordSpan)
  /-- The records of a token. -/
  | tokenRecords (token : Nat)
  /-- The records of all forms. -/
  | buffer
  /-- The spans of all tokens. -/
  | tokenSpans
  /-- The number of tokens and that of forms. -/
  | counts
  /-- The written spans of all tokens. -/
  | spanTable

/-- A request to a table. The analyses may differ from one request to the next. -/
inductive Request (m : Type → Type) where
  /-- One more token of a form. -/
  | add (analyze : String → m (List Analysis)) (form : String)
  /-- A look-up. -/
  | look (lookup : Lookup)

/-- What a table says to a request. -/
inductive Answer where
  /-- The token is taken and has this span. -/
  | taken (span : RecordSpan)
  /-- The token is refused. -/
  | refused (failure : BuildError)
  | entry (entry : Option FormEntry)
  | headwords (headwords : List String)
  | records (records : Option (List Record))
  | tokenRecords (records : Option (List Record))
  | buffer (records : List Record)
  | tokenSpans (spans : List RecordSpan)
  | counts (tokens forms : Nat)
  | spanTable (words : Except BuildError (List UInt32))

/-- What a table says to a look-up. -/
def answer (table : FormTable) : Lookup → Answer
  | .entry form => .entry (table.entry? form)
  | .headwords form => .headwords (table.headwords form)
  | .records span => .records (table.recordsAt? span)
  | .tokenRecords token => .tokenRecords (table.tokenRecords? token)
  | .buffer => .buffer table.records.toList
  | .tokenSpans => .tokenSpans table.tokenSpans.toList
  | .counts => .counts table.tokenCount table.formCount
  | .spanTable => .spanTable table.spanTable

section

variable {m : Type → Type} [Monad m]

/-- Serves one request. -/
def serve : Request m → StateT FormTable m Answer
  | .add analyze form => do
    match ← (addInPlace analyze form).run with
    | .ok entry => return .taken entry.span
    | .error failure => return .refused failure
  | .look lookup => return (← get).answer lookup

/-- Serves requests one after the other. -/
def serveAll (requests : List (Request m)) : StateT FormTable m (List Answer) :=
  requests.mapM serve

end

end Concordance.FormTable
