import Concordance.Proofs.Corpus.Ratio
import Concordance.Proofs.Corpus.Spans
import Concordance.Proofs.Forms.Layout

/-!
# Why a build fails

The faults of a work are looked for at different moments of a build: before its rows, at each of
them, and behind them. A build that stays within the capacities succeeds exactly when no work has a
fault, and otherwise tells the first fault of the first work that has one
(`Corpus.first_fault_of_works`).

- `Work.Acceptable`: what is asked of a work behind others.
- `Work.FirstFault`: the fault of a work that a build tells.
- `Draft.acceptable_of_addWork`, `Draft.addWork_eq_error`: a work is taken without a fault, and
  refused for its first one.
-/

namespace Concordance

/-- A section id may not stand behind another: it has no parts or an empty one, or repeats it. -/
def SectionId.Refused (previous : Option SectionId) (id : SectionId) : Prop :=
  id = [] ∨ "" ∈ id ∨ previous = some id

theorem SectionId.isWellFormed_iff {id : SectionId} :
    id.isWellFormed = true ↔ ¬(id = [] ∨ "" ∈ id) := by
  have hparts : (∀ part ∈ id, ¬part = "") ↔ "" ∉ id :=
    ⟨fun h hmem => h "" hmem rfl, fun h part hpart hempty => h (hempty ▸ hpart)⟩
  simp [isWellFormed, hparts]

namespace Work

/-- The section id of a row may not stand there. -/
def RefusedAt (work : Work) (row : Nat) : Prop :=
  ∃ id, work.rowIds[row]? = some id ∧ SectionId.Refused (work.idBefore row) id

/-- There is a word in a row of the work. -/
def HasWord (tokenizer : Tokenizer) (work : Work) : Prop :=
  ∃ row ∈ work.rows, ∃ chunk ∈ tokenizer.chunks row, chunk.isWord = true

/-- The author of the work is new, or that of the work right before it. -/
def Follows (before : List Work) (work : Work) : Prop :=
  (∀ other ∈ before, other.authorCode ≠ work.authorCode)
    ∨ ∃ last, before.getLast? = some last ∧ last.authorCode = work.authorCode

/-- What is asked of a work that comes behind others. -/
structure Acceptable (tokenizer : Tokenizer) (before : List Work) (work : Work) : Prop where
  /-- Every row has a section id. -/
  rows_length : work.rows.length = work.rowIds.length
  rows_ne_nil : work.rows ≠ []
  follows : work.Follows before
  /-- Section ids have parts, and none of them is empty. -/
  ids : ∀ id ∈ work.rowIds, id ≠ [] ∧ "" ∉ id
  /-- No row repeats the section id of the one before it. -/
  distinct : ∀ row id, work.rowIds[row]? = some id → work.rowIds[row + 1]? ≠ some id
  hasWord : work.HasWord tokenizer

/-- Works that come one behind the other are acceptable. -/
def Accepted (tokenizer : Tokenizer) (works : List Work) : Prop :=
  ∀ before work later, works = before ++ work :: later → work.Acceptable tokenizer before

/-- The first fault of a work that comes behind others. A kind of fault counts only if there is none
of the kinds before it. -/
inductive FirstFault (tokenizer : Tokenizer) (before : List Work) (work : Work) : BuildError → Prop
  /-- There are more or fewer section ids than rows. -/
  | rowIds (h : work.rows.length ≠ work.rowIds.length) :
    FirstFault tokenizer before work
      (.rowIdMismatch work.id work.rows.length work.rowIds.length)
  /-- There are no rows. -/
  | noRows (hlength : work.rows.length = work.rowIds.length) (h : work.rows = []) :
    FirstFault tokenizer before work (.emptyWork work.id)
  /-- The author has earlier works, and the work right before is by another. -/
  | author (hlength : work.rows.length = work.rowIds.length) (hrows : work.rows ≠ [])
      (h : ¬work.Follows before) :
    FirstFault tokenizer before work (.nonContiguousAuthor work.authorCode work.id)
  /-- The section id of a row is refused, and it is the first that is. It is told with the one
  before it, if the row is not the first. -/
  | sectionId (hlength : work.rows.length = work.rowIds.length) (hrows : work.rows ≠ [])
      (hauthor : work.Follows before) {row : Nat} {id : SectionId}
      (hid : work.rowIds[row]? = some id) (h : SectionId.Refused (work.idBefore row) id)
      (hfirst : ∀ earlier < row, ¬work.RefusedAt earlier) :
    FirstFault tokenizer before work (.malformedSectionId work.id
      ((work.idBefore row).elim "" SectionId.label) id.label)
  /-- There is no word. -/
  | noWords (hlength : work.rows.length = work.rowIds.length) (hrows : work.rows ≠ [])
      (hauthor : work.Follows before) (hids : ∀ row, ¬work.RefusedAt row)
      (h : ¬work.HasWord tokenizer) :
    FirstFault tokenizer before work (.emptyWork work.id)

variable {tokenizer : Tokenizer} {before : List Work} {work : Work}

/-- No section id is refused exactly if all are well formed and none repeats the one before it. -/
theorem forall_not_refusedAt_iff : (∀ row, ¬work.RefusedAt row)
    ↔ (∀ id ∈ work.rowIds, id ≠ [] ∧ "" ∉ id)
      ∧ ∀ row id, work.rowIds[row]? = some id → work.rowIds[row + 1]? ≠ some id := by
  constructor
  · intro h
    constructor
    · intro id hmem
      obtain ⟨row, hid⟩ := List.getElem?_of_mem hmem
      exact ⟨fun hnone => h row ⟨id, hid, .inl hnone⟩,
        fun hempty => h row ⟨id, hid, .inr (.inl hempty)⟩⟩
    · intro row id hid hnext
      exact h (row + 1) ⟨id, hnext, .inr (.inr hid)⟩
  · rintro ⟨hids, hdistinct⟩ row ⟨id, hid, hnone | hempty | hrepeats⟩
    · exact (hids id (List.mem_of_getElem? hid)).1 hnone
    · exact (hids id (List.mem_of_getElem? hid)).2 hempty
    · cases row with
      | zero => cases hrepeats
      | succ row => exact hdistinct row id hrepeats hid

/-- A work with a fault is not acceptable. -/
theorem FirstFault.not_acceptable {failure : BuildError}
    (h : work.FirstFault tokenizer before failure) : ¬work.Acceptable tokenizer before := by
  intro haccepted
  cases h with
  | rowIds h => exact h haccepted.rows_length
  | noRows _ h => exact haccepted.rows_ne_nil h
  | author _ _ h => exact h haccepted.follows
  | @sectionId _ _ _ row id hid h =>
    exact forall_not_refusedAt_iff.mpr ⟨haccepted.ids, haccepted.distinct⟩ row ⟨id, hid, h⟩
  | noWords _ _ _ _ h => exact h haccepted.hasWord

end Work

namespace Draft

variable {analyze : String → List Analysis} {reader : Reader} {draft grown : Draft}
  {failure : BuildError}

/-! ## Words and text -/

/-- A word is refused only when there is no room for it. -/
theorem isCapacity_of_addWord {spelling : String}
    (h : draft.addWord analyze spelling = .error failure) : failure.isCapacity = true := by
  unfold addWord at h
  rcases guard_eq_error.mp h with ⟨-, rfl⟩ | ⟨-, h⟩
  · rfl
  · rcases bind_eq_error.mp h with hforms | ⟨_, _, h⟩
    · exact FormTable.isCapacity_of_add hforms
    · cases h

/-- The chunks of a row are refused only when there is no room for a word. -/
theorem isCapacity_of_addChunks {chunks : List Chunk}
    (h : chunks.foldlM (addChunk analyze) draft = .error failure) : failure.isCapacity = true := by
  obtain ⟨-, chunk, -, -, between, -, hchunk⟩ := foldlM_eq_error h
  unfold addChunk at hchunk
  by_cases hword : chunk.isWord = true
  · rw [if_pos hword] at hchunk
    exact isCapacity_of_addWord hchunk
  · rw [if_neg hword] at hchunk
    cases hchunk

/-- A text is refused only when it is too long. -/
theorem isCapacity_of_textOffset {text : String} (h : textOffset text = .error failure) :
    failure.isCapacity = true := by
  unfold textOffset at h
  by_cases hlt : text.utf8ByteSize < UInt32.size
  · rw [if_pos hlt] at h
    cases h
  · rw [if_neg hlt] at h
    cases h
    rfl

theorem isCapacity_of_textOf {tokens : List Token} (h : textOf tokens = .error failure) :
    failure.isCapacity = true := by
  unfold textOf at h
  rcases bind_eq_error.mp h with htokens | ⟨_, _, h⟩
  · obtain ⟨-, token, -, -, between, -, htoken⟩ := foldlM_eq_error htokens
    unfold appendText at htoken
    rcases bind_eq_error.mp htoken with hstart | ⟨_, _, htoken⟩
    · exact isCapacity_of_textOffset hstart
    · rcases bind_eq_error.mp htoken with hbreak | ⟨_, _, htoken⟩
      · exact isCapacity_of_textOffset hbreak
      · cases htoken
  · rcases bind_eq_error.mp h with hend | ⟨_, _, h⟩
    · exact isCapacity_of_textOffset hend
    · cases h

/-! ## Rows -/

/-- A section id is refused exactly if no boundary can be made before its row. -/
theorem exists_boundaryBefore_iff {previous : Option SectionId} {id : SectionId} :
    (∃ boundary, boundaryBefore previous id = .ok boundary) ↔ ¬SectionId.Refused previous id := by
  unfold SectionId.Refused
  rw [← or_assoc, not_or, ← SectionId.isWellFormed_iff]
  cases previous with
  | none =>
    cases hwell : id.isWellFormed with
    | false => simp [boundaryBefore, SectionId.check, hwell, Except.map]
    | true => simp [boundaryBefore, SectionId.check, hwell, Except.map]
  | some previous =>
    cases hwell : id.isWellFormed with
    | false => simp [boundaryBefore, SectionId.boundary, hwell, Except.map]
    | true =>
      by_cases hrepeats : previous = id
      · simp [boundaryBefore, SectionId.boundary, hwell, hrepeats, Except.map]
      · simp only [boundaryBefore, SectionId.boundary, hwell, hrepeats, Bool.not_true, if_false,
          Option.some.injEq, Bool.false_eq_true, not_false_eq_true, and_true, iff_true]
        by_cases hparents : previous.length = id.length ∧ previous.dropLast = id.dropLast
        · rw [if_pos hparents]
          exact ⟨some .soft, rfl⟩
        · rw [if_neg hparents]
          exact ⟨some .hard, rfl⟩

variable {workId : String} {workStart : Nat}

/-- A row is refused when there is no room for it, or for its section id. -/
theorem addRow_eq_error {previous : Option SectionId} {row : String} {id : SectionId}
    (h : draft.addRow reader workId workStart previous row id = .error failure) :
    failure.isCapacity = true ∨ (SectionId.Refused previous id
      ∧ failure = .malformedSectionId workId (previous.elim "" SectionId.label) id.label) := by
  unfold addRow at h
  rcases bind_eq_error.mp h with hboundary | ⟨boundary, -, h⟩
  · obtain ⟨problem, hproblem, rfl⟩ := mapError_eq_error.mp hboundary
    refine .inr ⟨?_, ?_⟩
    · by_contra hnot
      obtain ⟨boundary, hboundary⟩ := exists_boundaryBefore_iff.mpr hnot
      rw [hproblem] at hboundary
      cases hboundary
    · cases previous with
      | none => rfl
      | some previous => rfl
  · rcases bind_eq_error.mp h with hchunks | ⟨_, _, h⟩
    · exact .inl (isCapacity_of_addChunks hchunks)
    · cases h

variable {work : Work}

/-- A row is taken when its section id is not refused. -/
theorem not_refusedAt_of_addRow {index : Nat} {row : String} {id : SectionId} {span : RowSpan}
    (hid : work.rowIds[index]? = some id)
    (h : draft.addRow reader work.id workStart (work.idBefore index) row id = .ok (grown, span)) :
    ¬work.RefusedAt index := by
  obtain ⟨boundary, hboundary, -⟩ := addRow_eq_ok h
  rintro ⟨found, hfound, hrefused⟩
  rw [hid] at hfound
  cases hfound
  exact exists_boundaryBefore_iff.mp ⟨boundary, hboundary⟩ hrefused

/-- Rows are taken when no section id is refused. -/
theorem not_refusedAt_of_addRows {index : Nat} {rows : List (String × SectionId)}
    {spans : List RowSpan} (hlength : work.rows.length = work.rowIds.length)
    (hrows : rows = (work.rows.zip work.rowIds).drop index)
    (h : draft.addRows reader work.id workStart (work.idBefore index) rows = .ok (grown, spans)) :
    ∀ row, index ≤ row → ¬work.RefusedAt row := by
  induction rows generalizing draft grown index spans with
  | nil =>
    rintro row hle ⟨id, hid, -⟩
    have hcount := List.drop_eq_nil_iff.mp hrows.symm
    rw [List.length_zip, hlength, Nat.min_self] at hcount
    have hlt := (List.getElem?_eq_some_iff.mp hid).1
    omega
  | cons first rows ih =>
    obtain ⟨row, id⟩ := first
    obtain ⟨-, hid, hlater⟩ := Work.rows_cons hrows
    unfold addRows at h
    obtain ⟨⟨next, span⟩, hnext, h⟩ := bind_eq_ok.mp h
    obtain ⟨⟨last, rest⟩, hlast, -⟩ := bind_eq_ok.mp h
    intro later hle
    rcases Nat.eq_or_lt_of_le hle with rfl | hlt
    · exact not_refusedAt_of_addRow hid hnext
    · have hprevious : work.idBefore (index + 1) = some id := hid
      exact ih hlater (hprevious ▸ hlast) later hlt

/-- Rows are refused when there is no room for them, or for the first section id that is
refused. -/
theorem addRows_eq_error {index : Nat} {rows : List (String × SectionId)}
    (hrows : rows = (work.rows.zip work.rowIds).drop index)
    (hbefore : ∀ row < index, ¬work.RefusedAt row)
    (h : draft.addRows reader work.id workStart (work.idBefore index) rows = .error failure) :
    failure.isCapacity = true ∨ ∃ row id, work.rowIds[row]? = some id
      ∧ SectionId.Refused (work.idBefore row) id ∧ (∀ earlier < row, ¬work.RefusedAt earlier)
      ∧ failure = .malformedSectionId work.id ((work.idBefore row).elim "" SectionId.label)
        id.label := by
  induction rows generalizing draft index with
  | nil => cases h
  | cons first rows ih =>
    obtain ⟨row, id⟩ := first
    obtain ⟨-, hid, hlater⟩ := Work.rows_cons hrows
    unfold addRows at h
    rcases bind_eq_error.mp h with hfirst | ⟨⟨next, span⟩, hnext, h⟩
    · rcases addRow_eq_error hfirst with hroom | ⟨hrefused, rfl⟩
      · exact .inl hroom
      · exact .inr ⟨index, id, hid, hrefused, hbefore, rfl⟩
    · rcases bind_eq_error.mp h with hrest | ⟨_, _, h⟩
      · have hprevious : work.idBefore (index + 1) = some id := hid
        refine ih hlater ?_ (hprevious ▸ hrest)
        intro earlier hlt
        rcases Nat.lt_succ_iff_lt_or_eq.mp hlt with hlt | rfl
        · exact hbefore earlier hlt
        · exact not_refusedAt_of_addRow hid hnext
      · cases h

/-! ## Works -/

variable {before : List Work}

/-- The rows of a work bring a token exactly if one of them has a word. -/
theorem size_ne_iff_hasWord {spans : List RowSpan} (h : WorksTaken reader.tokenizer draft before)
    (hlength : work.rows.length = work.rowIds.length)
    (hrows : draft.addRows reader work.id draft.tokens.size none (work.rows.zip work.rowIds)
      = .ok (grown, spans)) :
    grown.tokens.size ≠ draft.tokens.size ↔ work.HasWord reader.tokenizer := by
  obtain ⟨htaken, hcount⟩ := h.addRows hlength hrows
  have hle := htaken.tiles.le
  have hlt := htaken.start_lt_iff
  rw [hcount, List.take_length, List.any_flatMap] at hlt
  have hiff : grown.tokens.size ≠ draft.tokens.size ↔ draft.tokens.size < grown.tokens.size := by
    omega
  rw [hiff, hlt]
  simp [Work.HasWord]

/-- The works that are noted have the authors of the works, in order. -/
theorem Notes.authorCodes_eq (h : draft.Notes before) :
    draft.works.toList.map (·.authorCode) = before.map (·.authorCode) := by
  have hsame : List.Forall₂ (· = ·) (before.map (·.authorCode))
      (draft.works.toList.map (·.authorCode)) := by
    rw [List.forall₂_map_left_iff, List.forall₂_map_right_iff]
    exact h.cites.imp fun _ _ hcited => hcited.authorCode_eq.symm
  rw [List.forall₂_eq_eq_eq] at hsame
  exact hsame.symm

/-- An author without a span is new. -/
theorem Notes.getElem?_authors_eq_none_iff (h : draft.Notes before) :
    draft.authors[work.authorCode]? = none
      ↔ ∀ other ∈ before, other.authorCode ≠ work.authorCode := by
  have hmem : (∃ span ∈ draft.works, span.authorCode = work.authorCode)
      ↔ ∃ other ∈ before, other.authorCode = work.authorCode := by
    simp only [← Array.mem_toList_iff, ← List.mem_map, h.authorCodes_eq]
  rw [← Option.not_isSome_iff_eq_none, h.isSome_iff, hmem]
  simp only [not_exists, not_and, ne_eq]

/-- The span of an author takes one more work exactly if it has the last one. -/
theorem Notes.exists_lastWork_iff (h : draft.Notes before) :
    (∃ former, draft.authors[work.authorCode]? = some former
        ∧ former.lastWork + 1 = draft.works.size)
      ↔ ∃ last, before.getLast? = some last ∧ last.authorCode = work.authorCode := by
  have hlast : (∃ span, draft.works.back? = some span ∧ span.authorCode = work.authorCode)
      ↔ ∃ last, before.getLast? = some last ∧ last.authorCode = work.authorCode := by
    simp only [← Array.getLast?_toList, ← Option.map_eq_some_iff, ← List.getLast?_map,
      h.authorCodes_eq]
  rw [← hlast]
  constructor
  · rintro ⟨former, hformer, heq⟩
    exact (h.covers hformer).lastWork_add_one_eq_iff.mp heq
  · rintro ⟨span, hspan, hcode⟩
    have hsome := h.isSome_of_mem (Array.mem_of_back? hspan)
    rw [hcode] at hsome
    obtain ⟨former, hformer⟩ := Option.isSome_iff_exists.mp hsome
    exact ⟨former, hformer, (h.covers hformer).lastWork_add_one_eq_iff.mpr ⟨span, hspan, hcode⟩⟩

/-- An author has a span for one more work exactly if the work follows those before it. -/
theorem Notes.exists_authorWith_iff (h : draft.Notes before) :
    (∃ author, draft.authorWith work = .ok author) ↔ work.Follows before := by
  rw [Work.Follows, ← h.getElem?_authors_eq_none_iff, ← h.exists_lastWork_iff]
  constructor
  · rintro ⟨author, hauthor⟩
    rcases authorWith_eq_ok.mp hauthor with ⟨hnone, -⟩ | ⟨former, hformer, heq, -⟩
    · exact .inl hnone
    · exact .inr ⟨former, hformer, heq⟩
  · rintro (hnone | ⟨former, hformer, heq⟩)
    · exact ⟨_, authorWith_eq_ok.mpr (.inl ⟨hnone, rfl⟩)⟩
    · exact ⟨_, authorWith_eq_ok.mpr (.inr ⟨former, hformer, heq, rfl⟩)⟩

theorem authorWith_eq_error (h : draft.authorWith work = .error failure) :
    failure = .nonContiguousAuthor work.authorCode work.id := by
  unfold authorWith at h
  simp only at h
  cases hformer : draft.authors[work.authorCode]? with
  | none =>
    rw [hformer] at h
    cases h
  | some former =>
    rw [hformer] at h
    simp only at h
    by_cases hnext : former.lastWork + 1 = draft.works.size
    · rw [if_pos hnext] at h
      cases h
    · rw [if_neg hnext] at h
      cases h
      rfl

theorem acceptable_of_addWork (htaken : WorksTaken reader.tokenizer draft before)
    (hnotes : draft.Notes before) (h : draft.addWork reader work = .ok grown) :
    work.Acceptable reader.tokenizer before := by
  obtain ⟨hlength, author, next, spans, hauthor, hrows, hsize, -⟩ := addWork_eq_ok h
  have hword := (size_ne_iff_hasWord htaken hlength hrows).mp hsize
  have hids := not_refusedAt_of_addRows hlength List.drop_zero.symm hrows
  obtain ⟨hwell, hdistinct⟩ :=
    Work.forall_not_refusedAt_iff.mp fun row => hids row (Nat.zero_le row)
  refine ⟨hlength, ?_, hnotes.exists_authorWith_iff.mp ⟨author, hauthor⟩, hwell, hdistinct, hword⟩
  obtain ⟨row, hrow, -⟩ := hword
  exact List.ne_nil_of_mem hrow

/-- A work is refused when there is no room for it, or for its first fault. -/
theorem addWork_eq_error (htaken : WorksTaken reader.tokenizer draft before)
    (hnotes : draft.Notes before) (h : draft.addWork reader work = .error failure) :
    failure.isCapacity = true ∨ work.FirstFault reader.tokenizer before failure := by
  unfold addWork at h
  rcases guard_eq_error.mp h with ⟨hlength, rfl⟩ | ⟨hlength, h⟩
  · exact .inr (.rowIds hlength)
  have hlength := Decidable.not_not.mp hlength
  rcases guard_eq_error.mp h with ⟨hnone, rfl⟩ | ⟨hsome, h⟩
  · exact .inr (.noRows hlength (List.isEmpty_iff.mp hnone))
  have hsome : work.rows ≠ [] := fun hnone => hsome (List.isEmpty_iff.mpr hnone)
  rcases bind_eq_error.mp h with hauthor | ⟨author, hauthor, h⟩
  · have hnot : ¬work.Follows before := by
      rw [← hnotes.exists_authorWith_iff, hauthor]
      rintro ⟨_, h⟩
      cases h
    rw [authorWith_eq_error hauthor]
    exact .inr (.author hlength hsome hnot)
  have hfollows := hnotes.exists_authorWith_iff.mp ⟨author, hauthor⟩
  rcases bind_eq_error.mp h with hrows | ⟨⟨next, spans⟩, hrows, h⟩
  · rcases addRows_eq_error List.drop_zero.symm (fun _ hlt => absurd hlt (Nat.not_lt_zero _)) hrows
      with hroom | ⟨row, id, hid, hrefused, hfirst, rfl⟩
    · exact .inl hroom
    · exact .inr (.sectionId hlength hsome hfollows hid hrefused hfirst)
  rcases guard_eq_error.mp h with ⟨hsize, rfl⟩ | ⟨-, h⟩
  · refine .inr (.noWords hlength hsome hfollows ?_ ?_)
    · exact fun row =>
        not_refusedAt_of_addRows hlength List.drop_zero.symm hrows row (Nat.zero_le row)
    · exact fun hword => (size_ne_iff_hasWord htaken hlength hrows).mpr hword hsize
  · cases h

/-- Works are taken when all are acceptable. -/
theorem accepted_of_foldlM_addWork {works : List Work}
    (h : works.foldlM (addWork reader) .empty = .ok draft) : Work.Accepted reader.tokenizer works := by
  rintro before work later rfl
  rw [List.foldlM_append] at h
  obtain ⟨between, hbetween, h⟩ := bind_eq_ok.mp h
  rw [List.foldlM_cons] at h
  obtain ⟨next, hnext, -⟩ := bind_eq_ok.mp h
  exact acceptable_of_addWork (worksTaken_of_foldlM_addWork hbetween)
    (notes_of_foldlM_addWork hbetween) hnext

end Draft

namespace Corpus

variable {reader : Reader} {ratio : UInt32} {works : List Work} {failure : BuildError}

theorem ofWorks_eq_error (h : ofWorks reader ratio works = .error failure) :
    failure.isCapacity = true ∨ ∃ before work later, works = before ++ work :: later
      ∧ Work.Accepted reader.tokenizer before ∧ work.FirstFault reader.tokenizer before failure := by
  unfold ofWorks at h
  rcases bind_eq_error.mp h with hworks | ⟨draft, hdraft, hfinish⟩
  · obtain ⟨before, work, later, hsplit, between, hbetween, hwork⟩ := foldlM_eq_error hworks
    rcases Draft.addWork_eq_error (worksTaken_of_foldlM_addWork hbetween)
      (Draft.notes_of_foldlM_addWork hbetween) hwork with hroom | hfault
    · exact .inl hroom
    · exact .inr ⟨before, work, later, hsplit, Draft.accepted_of_foldlM_addWork hbetween, hfault⟩
  · have htext := (sound_of_foldlM_addWork hdraft).finish_eq_error_iff ratio failure
    exact .inl (Draft.isCapacity_of_textOf (htext.mp hfinish))

/-- A build that stays within the capacities succeeds exactly if every work is acceptable behind
those before it: it has a section id for every row and at least one row, its author is new or that
of the work right before it, its section ids are well formed and none repeats the one before it, and
there is a word in it. Otherwise the build tells the first fault of the first work that has one. -/
theorem first_fault_of_works
    (hroom : ∀ failure, ofWorks reader ratio works = .error failure → failure.isCapacity = false) :
    ((∃ corpus, ofWorks reader ratio works = .ok corpus) ↔ Work.Accepted reader.tokenizer works)
      ∧ ∀ failure, ofWorks reader ratio works = .error failure →
        ∃ before work later, works = before ++ work :: later
          ∧ Work.Accepted reader.tokenizer before ∧ work.FirstFault reader.tokenizer before failure := by
  have hfault : ∀ failure, ofWorks reader ratio works = .error failure →
      ∃ before work later, works = before ++ work :: later
        ∧ Work.Accepted reader.tokenizer before ∧ work.FirstFault reader.tokenizer before failure := by
    intro failure hfailed
    rcases ofWorks_eq_error hfailed with hcapacity | hfirst
    · rw [hroom failure hfailed] at hcapacity
      cases hcapacity
    · exact hfirst
  refine ⟨⟨?_, ?_⟩, hfault⟩
  · rintro ⟨corpus, hcorpus⟩
    obtain ⟨draft, hdraft, -⟩ := ofWorks_eq_ok.mp hcorpus
    exact Draft.accepted_of_foldlM_addWork hdraft
  · intro haccepted
    cases hresult : ofWorks reader ratio works with
    | ok corpus => exact ⟨corpus, rfl⟩
    | error failure =>
      obtain ⟨before, work, later, hsplit, -, hfirst⟩ := hfault failure hresult
      exact absurd (haccepted before work later hsplit) hfirst.not_acceptable

/-- A work with two faults: its second row repeats a section id, and it has no word. -/
def repeatedRow : Work := { civilRow with rows := ["(", ")"], rowIds := [["1"], ["1"]] }

/-- Two works behind each other are built, and so they are accepted. Of the two faults of another
second work the repeated section id is told, with the one it repeats. -/
theorem first_fault_of_works_repeated :
    ((∃ corpus, ofWorks gallicReader 32 [gallicRows, civilRow] = .ok corpus)
      ∧ Work.Accepted gallicReader.tokenizer [gallicRows, civilRow])
    ∧ (¬∃ corpus, ofWorks gallicReader 32 [gallicRows, repeatedRow] = .ok corpus)
      ∧ ¬Work.Accepted gallicReader.tokenizer [gallicRows, repeatedRow]
      ∧ ∃ before work later, [gallicRows, repeatedRow] = before ++ work :: later
        ∧ Work.Accepted gallicReader.tokenizer before
        ∧ work.FirstFault gallicReader.tokenizer before (.malformedSectionId "civil" "1" "1") := by
  constructor
  · obtain ⟨corpus, hcorpus, -⟩ := exists_ofWorks_civilRow
    have hroom : ∀ failure, ofWorks gallicReader 32 [gallicRows, civilRow] = .error failure →
        failure.isCapacity = false := by
      intro failure h
      rw [hcorpus] at h
      cases h
    exact ⟨⟨corpus, hcorpus⟩, (first_fault_of_works hroom).1.mp ⟨corpus, hcorpus⟩⟩
  have hwork : (gallicNoted.addWork gallicReader repeatedRow).map (fun _ => ())
      = .error (.malformedSectionId "civil" "1" "1") := by
    decide +kernel
  have hfailed : ofWorks gallicReader 32 [gallicRows, repeatedRow]
      = .error (.malformedSectionId "civil" "1" "1") :=
    bind_eq_error.mpr (.inl (bind_eq_error.mpr (.inr ⟨gallicNoted, addWork_gallicRows,
      bind_eq_error.mpr (.inl (map_eq_error.mp hwork))⟩)))
  have hroom : ∀ failure, ofWorks gallicReader 32 [gallicRows, repeatedRow] = .error failure →
      failure.isCapacity = false := by
    intro failure h
    rw [hfailed] at h
    cases h
    rfl
  obtain ⟨hiff, hfault⟩ := first_fault_of_works hroom
  have hnone : ¬∃ corpus, ofWorks gallicReader 32 [gallicRows, repeatedRow] = .ok corpus := by
    rintro ⟨corpus, hcorpus⟩
    rw [hfailed] at hcorpus
    cases hcorpus
  exact ⟨hnone, fun haccepted => hnone (hiff.mpr haccepted), hfault _ hfailed⟩

end Corpus

end Concordance
