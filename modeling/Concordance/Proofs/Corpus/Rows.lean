import Concordance.Proofs.Corpus.Postings
import Concordance.Proofs.Corpus.Tokens
import Concordance.Proofs.Tiling

/-!
# Rows and works

The rows of a work are laid out as lines: a row that a soft boundary separates from the one before
it starts on a new line, unless the work has no word yet. A hard boundary leaves a mark on the token
before it, again only behind the first word of the work.

- `Work.startsLine`, `Work.Parts`: what a boundary between two rows comes to.
- `Work.chunks`: the chunks of a work with the line feeds between its rows.
- `RowsTaken`: what holds of a draft when some rows of a work are taken. Every row keeps this
  (`RowsTaken.addRow`).
- `WorksTaken`: what holds of a draft when some works are taken. Every work keeps this
  (`WorksTaken.addWork`), so it holds of the draft of every corpus (`Corpus.exists_worksTaken`).
-/

namespace Concordance

/-- The first token of a row and the one behind its last. -/
def RowSpan.range (span : RowSpan) : Nat × Nat := (span.start, span.stop)

/-- The first token of a work and the one behind its last. -/
def WorkSpan.range (span : WorkSpan) : Nat × Nat := (span.start, span.stop)

/-! ## Boundaries between rows -/

namespace Work

/-- The section id of the row before a row. -/
def idBefore (work : Work) : Nat → Option SectionId
  | 0 => none
  | index + 1 => work.rowIds[index]?

/-- The boundary before a row. There is none before the first row of a work. -/
def boundaryBefore (work : Work) (index : Nat) : Option Boundary := do
  (SectionId.boundary (← work.idBefore index) (← work.rowIds[index]?)).toOption

/-- Whether a row starts on a new line: the boundary before it is soft, and some earlier row of the
work has a word. -/
def startsLine (tokenizer : Tokenizer) (work : Work) (index : Nat) : Bool :=
  work.boundaryBefore index = some .soft
    && ((work.rows.take index).flatMap tokenizer.chunks).any (·.isWord)

/-- The text of a work: its rows one after the other, some of them on new lines. -/
def laidOut (tokenizer : Tokenizer) (work : Work) : String :=
  String.join (work.rows.mapIdx fun index row =>
    (if work.startsLine tokenizer index then "\n" else "") ++ row)

/-- The chunks of a work, with the line feeds between its rows. -/
def chunks (tokenizer : Tokenizer) (work : Work) : List Chunk :=
  tokenizer.lines (work.startsLine tokenizer) work.rows

/-- A hard boundary of a work that starts at a token, and whose rows lie as given, is right behind a
token of the work. -/
def Parts (work : Work) (start : Nat) (spans : List RowSpan) (token : Nat) : Prop :=
  ∃ row span, work.boundaryBefore row = some .hard ∧ spans[row]? = some span
    ∧ span.start = token + 1 ∧ start < token + 1

/-- A token of a work stands before a hard boundary, as the last one or before a row. -/
def EndsAt (work : Work) (span : WorkSpan) (token : Nat) : Prop :=
  token + 1 = span.stop ∨ work.Parts span.start span.rows.toList token

/-- The first of the rows that are left. -/
theorem rows_cons {work : Work} {index : Nat} {row : String} {id : SectionId}
    {rows : List (String × SectionId)}
    (h : (row, id) :: rows = (work.rows.zip work.rowIds).drop index) :
    work.rows[index]? = some row ∧ work.rowIds[index]? = some id
      ∧ rows = (work.rows.zip work.rowIds).drop (index + 1) := by
  have hfirst : (work.rows.zip work.rowIds)[index]? = some (row, id) := by
    have hhead := congrArg (·[0]?) h
    simpa using hhead.symm
  obtain ⟨hrow, hid⟩ := List.getElem?_zip_eq_some.mp hfirst
  refine ⟨hrow, hid, ?_⟩
  rw [← List.drop_drop, ← h]
  rfl

theorem join_chunks (tokenizer : Tokenizer) [LawfulTokenizer tokenizer] (work : Work) :
    Chunk.join (work.chunks tokenizer) = work.laidOut tokenizer :=
  tokenizer.join_lines _ _

/-- On their lines, the first rows of a work have the words that they have one behind the other. -/
theorem alike_lines_take (tokenizer : Tokenizer) (work : Work) (count : Nat) :
    Chunk.Alike (tokenizer.lines (work.startsLine tokenizer) (work.rows.take count))
      ((work.rows.take count).flatMap tokenizer.chunks) := by
  refine tokenizer.alike_lines _ ?_
  intro index hindex hstart
  rw [List.length_take] at hindex
  rw [List.take_take, Nat.min_eq_left (by omega)]
  exact (Bool.and_eq_true_iff.mp hstart).2

/-- The same of all rows. -/
theorem alike_chunks (tokenizer : Tokenizer) (work : Work) :
    Chunk.Alike (work.chunks tokenizer) (work.rows.flatMap tokenizer.chunks) := by
  have halike := work.alike_lines_take tokenizer work.rows.length
  rw [List.take_length] at halike
  exact halike

/-- One more row may have one more boundary before it. -/
theorem parts_concat {work : Work} {start token : Nat} {spans : List RowSpan} {span : RowSpan} :
    work.Parts start (spans ++ [span]) token ↔ work.Parts start spans token
      ∨ (work.boundaryBefore spans.length = some .hard ∧ span.start = token + 1
        ∧ start < token + 1) := by
  unfold Parts
  constructor
  · rintro ⟨row, found, hhard, hfound, hplace⟩
    rcases Nat.lt_or_ge row spans.length with hlt | hge
    · rw [List.getElem?_append_left hlt] at hfound
      exact .inl ⟨row, found, hhard, hfound, hplace⟩
    · rw [List.getElem?_append_right hge] at hfound
      have hrow : row - spans.length < 1 := (List.getElem?_eq_some_iff.mp hfound).1
      have heq : row = spans.length := by omega
      rw [heq, Nat.sub_self] at hfound
      cases hfound
      exact .inr ⟨heq ▸ hhard, hplace⟩
  · rintro (⟨row, found, hhard, hfound, hplace⟩ | ⟨hhard, hplace⟩)
    · refine ⟨row, found, hhard, ?_, hplace⟩
      rw [List.getElem?_append_left (List.getElem?_eq_some_iff.mp hfound).1]
      exact hfound
    · exact ⟨spans.length, span, hhard, List.getElem?_concat_length, hplace⟩

end Work

/-! ## Rows -/

namespace Draft

variable {reader : Reader} {draft grown : Draft} {workId : String} {workStart : Nat}

/-- What taking a row does: the boundary before it is crossed, and its chunks are taken. -/
theorem addRow_eq_ok {previous : Option SectionId} {row : String} {id : SectionId} {span : RowSpan}
    (h : draft.addRow reader workId workStart previous row id = .ok (grown, span)) :
    ∃ boundary, boundaryBefore previous id = .ok boundary
      ∧ (reader.tokenizer.chunks row).foldlM (addChunk reader.analyze) (draft.cross workStart boundary)
        = .ok grown
      ∧ span = ⟨id.label, (draft.cross workStart boundary).tokens.size, grown.tokens.size⟩ := by
  unfold addRow at h
  obtain ⟨boundary, hboundary, h⟩ := bind_eq_ok.mp h
  obtain ⟨next, hnext, h⟩ := bind_eq_ok.mp h
  cases h
  exact ⟨boundary, mapError_eq_ok.mp hboundary, hnext, rfl⟩

/-- What taking a work does: it has as many section ids as rows, its author has a span that takes
one more work, its rows are taken, among them at least one word, its last token is marked, and its
span and that of the author are noted. -/
theorem addWork_eq_ok {work : Work} (h : draft.addWork reader work = .ok grown) :
    work.rows.length = work.rowIds.length ∧ ∃ author next spans,
      draft.authorWith work = .ok author
      ∧ draft.addRows reader work.id draft.tokens.size none (work.rows.zip work.rowIds)
        = .ok (next, spans)
      ∧ next.tokens.size ≠ draft.tokens.size
      ∧ grown = { next.markHardBreak with
          works := next.markHardBreak.works.push ⟨work.id, work.name, work.author, work.authorCode,
            draft.tokens.size, next.tokens.size, spans.toArray⟩
          authors := next.markHardBreak.authors.insert work.authorCode
            { author with stop := next.tokens.size } } := by
  unfold addWork at h
  simp only [guard_eq_ok] at h
  obtain ⟨hlength, -, h⟩ := h
  obtain ⟨author, hauthor, h⟩ := bind_eq_ok.mp h
  obtain ⟨⟨next, spans⟩, hnext, h⟩ := bind_eq_ok.mp h
  simp only [guard_eq_ok] at h
  obtain ⟨hsize, h⟩ := h
  cases h
  exact ⟨Decidable.not_not.mp hlength, author, next, spans, hauthor, hnext, hsize, rfl⟩

theorem size_cross (draft : Draft) (workStart : Nat) (boundary : Option Boundary) :
    (draft.cross workStart boundary).tokens.size = draft.tokens.size := by
  unfold cross
  split
  case isTrue =>
    match boundary with
    | none => rfl
    | some .soft => exact Array.size_modify
    | some .hard => exact congrArg Array.size (tokens_markHardBreak draft)
  case isFalse => rfl

/-- The boundary that is crossed before a row is that of its work. -/
theorem boundaryBefore_eq_ok {work : Work} {index : Nat} {id : SectionId}
    {boundary : Option Boundary} (hid : work.rowIds[index]? = some id)
    (h : boundaryBefore (work.idBefore index) id = .ok boundary) :
    boundary = work.boundaryBefore index := by
  unfold Work.boundaryBefore
  rw [hid]
  cases hprevious : work.idBefore index with
  | none =>
    rw [hprevious] at h
    obtain ⟨-, -, rfl⟩ := map_eq_ok.mp h
    rfl
  | some previous =>
    rw [hprevious] at h
    obtain ⟨found, hfound, rfl⟩ := map_eq_ok.mp h
    show _ = (SectionId.boundary previous id).toOption
    rw [hfound]
    rfl

/-- Only section ids that are well formed are accepted. -/
theorem isWellFormed_of_boundaryBefore {previous : Option SectionId} {id : SectionId}
    {boundary : Option Boundary} (h : boundaryBefore previous id = .ok boundary) :
    id.isWellFormed = true := by
  cases hwell : id.isWellFormed with
  | true => rfl
  | false =>
    cases previous with
    | none => simp [boundaryBefore, SectionId.check, hwell, Except.map] at h
    | some previous => simp [boundaryBefore, SectionId.boundary, hwell, Except.map] at h

end Draft

/-- What holds of a draft when rows of a work are taken: `before` are the chunks of the works
before, `marked` their marks. -/
structure RowsTaken (tokenizer : Tokenizer) (work : Work) (before : List Chunk) (marked : Nat → Prop)
    (works : Array WorkSpan) (start : Nat) (draft : Draft) (spans : List RowSpan) : Prop where
  /-- The work starts behind the words before it. -/
  start_eq : start = before.countP (·.isWord)
  /-- The rows so far are on their lines, with marks at the hard boundaries between them. -/
  tells : draft.Tells works
    (before ++ tokenizer.lines (work.startsLine tokenizer) (work.rows.take spans.length))
    fun token => marked token ∨ work.Parts start spans token
  /-- The rows lie end to end. -/
  tiles : Tiles draft.tokens.size start (spans.map (·.range))
  /-- Their section ids are well formed. -/
  accepted : ∀ id ∈ work.rowIds.take spans.length, id.isWellFormed = true

namespace RowsTaken

variable {reader : Reader} {work : Work} {before : List Chunk} {marked : Nat → Prop}
  {works : Array WorkSpan} {start : Nat} {draft grown : Draft} {spans : List RowSpan}

/-- The work has a token so far exactly if one of its rows has a word. -/
theorem start_lt_iff {tokenizer : Tokenizer}
    (h : RowsTaken tokenizer work before marked works start draft spans) :
    start < draft.tokens.size
      ↔ ((work.rows.take spans.length).flatMap tokenizer.chunks).any (·.isWord) = true := by
  rw [← (work.alike_lines_take tokenizer spans.length).any_eq, h.tells.size_eq, List.countP_append,
    ← h.start_eq, List.any_eq_true, ← List.countP_pos_iff]
  exact Nat.lt_add_right_iff_pos

/-- A row keeps what holds when rows are taken. -/
theorem addRow (h : RowsTaken reader.tokenizer work before marked works start draft spans)
    {row : String} {id : SectionId} {span : RowSpan} (hrow : work.rows[spans.length]? = some row)
    (hid : work.rowIds[spans.length]? = some id)
    (hgrown : draft.addRow reader work.id start (work.idBefore spans.length) row id
      = .ok (grown, span)) :
    RowsTaken reader.tokenizer work before marked works start grown (spans ++ [span]) := by
  obtain ⟨boundary, hboundary, hchunks, rfl⟩ := Draft.addRow_eq_ok hgrown
  obtain rfl := Draft.boundaryBefore_eq_ok hid hboundary
  have hcrossed := h.tells.cross start (work.boundaryBefore spans.length)
  have htaken := hcrossed.addChunks hchunks
  have hline : (if work.boundaryBefore spans.length = some .soft ∧ start < draft.tokens.size
        then [Chunk.lineFeed] else [])
      = if work.startsLine reader.tokenizer spans.length then [Chunk.lineFeed] else [] := by
    simp only [h.start_lt_iff]
    simp [Work.startsLine]
  have htake : work.rows.take (spans.length + 1) = work.rows.take spans.length ++ [row] := by
    rw [List.take_add_one, hrow, Option.toList_some]
  have hcount : (work.rows.take spans.length).length = spans.length := by
    rw [List.length_take]
    have := (List.getElem?_eq_some_iff.mp hrow).1
    omega
  have hids : work.rowIds.take (spans.length + 1) = work.rowIds.take spans.length ++ [id] := by
    rw [List.take_add_one, hid, Option.toList_some]
  rw [Draft.size_cross]
  refine ⟨h.start_eq, ?_, ?_, ?_⟩
  · rw [List.length_append, List.length_singleton, htake, Tokenizer.lines_concat, hcount,
      ← List.append_assoc, ← List.append_assoc, ← hline]
    refine htaken.congr ?_
    intro token
    rw [Work.parts_concat, or_assoc]
    refine or_congr_right (or_congr_right (and_congr_right ?_))
    intro _
    show start < draft.tokens.size ∧ token + 1 = draft.tokens.size
      ↔ draft.tokens.size = token + 1 ∧ start < token + 1
    omega
  · have hle : draft.tokens.size ≤ grown.tokens.size := by
      rw [h.tells.size_eq, htaken.size_eq]
      simp only [List.countP_append]
      omega
    rw [List.map_append]
    exact h.tiles.concat hle
  · rw [List.length_append, List.length_singleton, hids]
    intro other hother
    rcases List.mem_append.mp hother with hbefore | hnew
    · exact h.accepted other hbefore
    · rw [List.mem_singleton.mp hnew]
      exact Draft.isWellFormed_of_boundaryBefore hboundary

/-- Rows are taken one after the other. -/
theorem addRows (h : RowsTaken reader.tokenizer work before marked works start draft spans)
    {rows : List (String × SectionId)} {later : List RowSpan}
    (hrows : rows = (work.rows.zip work.rowIds).drop spans.length)
    (hgrown : draft.addRows reader work.id start (work.idBefore spans.length) rows
      = .ok (grown, later)) :
    RowsTaken reader.tokenizer work before marked works start grown (spans ++ later)
      ∧ later.length = rows.length := by
  induction rows generalizing draft spans later with
  | nil =>
    cases hgrown
    rw [List.append_nil]
    exact ⟨h, rfl⟩
  | cons first rows ih =>
    obtain ⟨row, id⟩ := first
    obtain ⟨hrow, hid, hlater⟩ := Work.rows_cons hrows
    unfold Draft.addRows at hgrown
    obtain ⟨⟨next, span⟩, hnext, hgrown⟩ := bind_eq_ok.mp hgrown
    obtain ⟨⟨last, rest⟩, hlast, hgrown⟩ := bind_eq_ok.mp hgrown
    cases hgrown
    have hcount : (spans ++ [span]).length = spans.length + 1 := List.length_append
    have hprevious : work.idBefore (spans ++ [span]).length = some id := by
      rw [hcount]
      exact hid
    obtain ⟨htaken, hlength⟩ := ih (h.addRow hrow hid hnext) (hcount ▸ hlater) (hprevious ▸ hlast)
    rw [List.append_assoc] at htaken
    exact ⟨htaken, by rw [List.length_cons, List.length_cons, hlength]⟩

end RowsTaken

/-! ## Works -/

/-- What holds of a draft when works are taken. -/
structure WorksTaken (tokenizer : Tokenizer) (draft : Draft) (works : List Work) : Prop where
  /-- Every work is noted. -/
  size_eq : draft.works.size = works.length
  /-- The tokens are those of the lines of the works. Besides those with a full stop behind them,
  the tokens at the hard boundaries of the works are marked. -/
  tells : draft.Tells draft.works (works.flatMap (Work.chunks tokenizer))
    fun token => ∃ pair ∈ works.zip draft.works.toList, Work.EndsAt pair.1 pair.2 token
  /-- The works lie end to end. -/
  tiles : Tiles draft.tokens.size 0 (draft.works.toList.map (·.range))
  /-- Every work has a token, its rows lie end to end, and its section ids are well formed. -/
  rows : ∀ pair ∈ works.zip draft.works.toList, pair.2.start < pair.2.stop
    ∧ Tiles pair.2.stop pair.2.start (pair.2.rows.toList.map (·.range))
    ∧ ∀ id ∈ pair.1.rowIds, id.isWellFormed = true

namespace WorksTaken

variable {reader : Reader} {draft grown : Draft} {works : List Work}

theorem empty (tokenizer : Tokenizer) : WorksTaken tokenizer .empty [] where
  size_eq := rfl
  tells := {
    size_le := Nat.zero_le _
    works_eq := rfl
    tokens_eq := rfl
    mem_hardBreak token := by simp [Draft.empty, Draft.Dotted] }
  tiles := rfl
  rows pair hpair := by
    cases hpair

/-- Before its first row, nothing is taken of a work. -/
theorem rowsTaken {tokenizer : Tokenizer} (h : WorksTaken tokenizer draft works) (work : Work) :
    RowsTaken tokenizer work (works.flatMap (Work.chunks tokenizer))
      (fun token => ∃ pair ∈ works.zip draft.works.toList, Work.EndsAt pair.1 pair.2 token)
      draft.works draft.tokens.size draft [] where
  start_eq := h.tells.size_eq
  tells := by
    have hnone : ∀ token, ¬work.Parts draft.tokens.size [] token := by
      rintro token ⟨row, span, -, hspan, -⟩
      cases hspan
    simp only [hnone, or_false]
    rw [List.length_nil, List.take_zero]
    exact (List.append_nil _).symm ▸ h.tells
  tiles := rfl
  accepted id hid := by
    cases hid

/-- The rows of a work are taken. -/
theorem addRows (h : WorksTaken reader.tokenizer draft works) {work : Work}
    (hlength : work.rows.length = work.rowIds.length) {spans : List RowSpan}
    (hrows : draft.addRows reader work.id draft.tokens.size none (work.rows.zip work.rowIds)
      = .ok (grown, spans)) :
    RowsTaken reader.tokenizer work (works.flatMap (Work.chunks reader.tokenizer))
        (fun token => ∃ pair ∈ works.zip draft.works.toList, Work.EndsAt pair.1 pair.2 token)
        draft.works draft.tokens.size grown spans
      ∧ spans.length = work.rows.length := by
  obtain ⟨htaken, hcount⟩ := (h.rowsTaken work).addRows List.drop_zero.symm hrows
  rw [List.length_zip, ← hlength, Nat.min_self] at hcount
  exact ⟨htaken, hcount⟩

/-- A work keeps what holds when works are taken. -/
theorem addWork (h : WorksTaken reader.tokenizer draft works) {work : Work}
    (hgrown : draft.addWork reader work = .ok grown) :
    WorksTaken reader.tokenizer grown (works ++ [work]) := by
  obtain ⟨hlength, author, next, spans, -, hrows, hsize, rfl⟩ := Draft.addWork_eq_ok hgrown
  obtain ⟨htaken, hcount⟩ := h.addRows hlength hrows
  have hlines : reader.tokenizer.lines (work.startsLine reader.tokenizer) (work.rows.take spans.length)
      = work.chunks reader.tokenizer := by
    rw [hcount, List.take_length]
    rfl
  have hmarked := htaken.tells.markHardBreak
  have hzip : ∀ span : WorkSpan, (works ++ [work]).zip (draft.works.push span).toList
      = works.zip draft.works.toList ++ [(work, span)] := by
    intro span
    have hlengths : works.length = draft.works.toList.length := h.size_eq.symm
    rw [Array.toList_push, List.zip_append hlengths]
    rfl
  have hle := htaken.tiles.le
  have hlast := hmarked.works_eq
  refine ⟨?_, ⟨hmarked.size_le, rfl, ?_, ?_⟩, ?_, ?_⟩
  · show (next.markHardBreak.works.push _).size = _
    rw [Array.size_push, hlast, h.size_eq, List.length_append, List.length_singleton]
  · rw [List.flatMap_append, List.flatMap_singleton, ← hlines]
    exact hmarked.tokens_eq
  · intro token
    refine (hmarked.mem_hardBreak token).trans ?_
    show _ ↔ _ ∨ ∃ pair ∈ (works ++ [work]).zip (next.markHardBreak.works.push _).toList, _
    rw [hlast, hzip]
    refine or_congr_right ?_
    simp only [List.mem_append, List.mem_singleton, or_and_right, exists_or, exists_eq_left,
      Work.EndsAt]
    rw [or_assoc]
    exact or_congr_right or_comm
  · show Tiles _ 0 ((next.markHardBreak.works.push _).toList.map (·.range))
    rw [hlast, Array.toList_push, List.map_append, Draft.tokens_markHardBreak]
    exact h.tiles.concat hle
  · show ∀ pair ∈ (works ++ [work]).zip (next.markHardBreak.works.push _).toList, _
    rw [hlast, hzip]
    intro pair hpair
    rcases List.mem_append.mp hpair with hbefore | hnew
    · exact h.rows pair hbefore
    · rw [List.mem_singleton.mp hnew]
      refine ⟨?_, htaken.tiles, ?_⟩
      · show draft.tokens.size < next.tokens.size
        omega
      · have haccepted := htaken.accepted
        rw [hcount, hlength, List.take_length] at haccepted
        exact haccepted

/-- Works are taken one after the other. -/
theorem addWorks (h : WorksTaken reader.tokenizer draft works) {later : List Work}
    (hgrown : later.foldlM (Draft.addWork reader) draft = .ok grown) :
    WorksTaken reader.tokenizer grown (works ++ later) :=
  foldlM_keeps (WorksTaken reader.tokenizer) (fun hnext htaken => htaken.addWork hnext) hgrown h

/-- Every work that is noted has a token, and its rows lie end to end. -/
theorem rows_of_mem {tokenizer : Tokenizer} (h : WorksTaken tokenizer draft works)
    {span : WorkSpan} (hspan : span ∈ draft.works) :
    span.start < span.stop ∧ Tiles span.stop span.start (span.rows.toList.map (·.range)) := by
  have hlengths : draft.works.toList.length ≤ works.length := Nat.le_of_eq h.size_eq
  rw [← Array.mem_toList_iff, ← List.map_snd_zip hlengths] at hspan
  obtain ⟨pair, hpair, rfl⟩ := List.mem_map.mp hspan
  obtain ⟨hfilled, hrows, -⟩ := h.rows pair hpair
  exact ⟨hfilled, hrows⟩

theorem start_lt_stop {tokenizer : Tokenizer} (h : WorksTaken tokenizer draft works)
    {span : WorkSpan} (hspan : span ∈ draft.works) : span.start < span.stop :=
  (h.rows_of_mem hspan).1

/-- There are no more works than tokens. -/
theorem size_works_le {tokenizer : Tokenizer} (h : WorksTaken tokenizer draft works) :
    draft.works.size ≤ draft.tokens.size := by
  have hfilled : ∀ range ∈ draft.works.toList.map (·.range), range.1 < range.2 := by
    intro range hrange
    obtain ⟨span, hspan, rfl⟩ := List.mem_map.mp hrange
    exact h.start_lt_stop (Array.mem_toList_iff.mp hspan)
  have hle := h.tiles.length_le hfilled
  rw [List.length_map, Array.length_toList] at hle
  exact hle

/-- There are tokens when there are works. -/
theorem size_pos {tokenizer : Tokenizer} (h : WorksTaken tokenizer draft works) (hsome : works ≠ []) :
    0 < draft.tokens.size := by
  have hworks : 0 < draft.works.size := by
    rw [h.size_eq]
    exact List.length_pos_of_ne_nil hsome
  have hspan : draft.works[0]? = some draft.works[0] := Array.getElem?_eq_getElem hworks
  have hlt := h.start_lt_stop (Array.mem_of_getElem? hspan)
  have hle : draft.works[0].stop ≤ draft.tokens.size :=
    (h.tiles.bounds (List.mem_of_getElem? (getElem?_ranges WorkSpan.range hspan))).2.2
  omega

/-- Every token lies in a work. -/
theorem exists_span {tokenizer : Tokenizer} (h : WorksTaken tokenizer draft works) {token : Nat}
    (htoken : token < draft.tokens.size) :
    ∃ (index : Nat) (span : WorkSpan), draft.works[index]? = some span ∧ span.start ≤ token
      ∧ token < span.stop :=
  h.tiles.exists_getElem? (Nat.zero_le token) htoken

end WorksTaken

/-- Taking works from the start. -/
theorem worksTaken_of_foldlM_addWork {reader : Reader} {works : List Work} {draft : Draft}
    (h : works.foldlM (Draft.addWork reader) .empty = .ok draft) :
    WorksTaken reader.tokenizer draft works :=
  (WorksTaken.empty reader.tokenizer).addWorks h

namespace Corpus

variable {reader : Reader} {ratio : UInt32} {works : List Work} {corpus : Corpus}

/-- A corpus is built when its works are taken and the draft is finished. -/
theorem ofWorks_eq_ok : ofWorks reader ratio works = .ok corpus
    ↔ ∃ draft, works.foldlM (Draft.addWork reader) .empty = .ok draft
      ∧ draft.finish ratio = .ok corpus :=
  bind_eq_ok

/-- Every corpus that is built comes from a draft that has taken its works. -/
theorem exists_worksTaken (h : ofWorks reader ratio works = .ok corpus) :
    ∃ draft, WorksTaken reader.tokenizer draft works ∧ corpus.OfDraft reader.analyze draft
      ∧ draft.finish ratio = .ok corpus := by
  obtain ⟨draft, hdraft, hfinish⟩ := ofWorks_eq_ok.mp h
  exact ⟨draft, worksTaken_of_foldlM_addWork hdraft,
    ofDraft_of_finish (sound_of_foldlM_addWork hdraft) hfinish, hfinish⟩

end Corpus

end Concordance
