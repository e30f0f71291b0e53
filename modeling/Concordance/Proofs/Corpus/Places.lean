import Concordance.Proofs.Corpus.Spans
import Concordance.Proofs.Search

/-!
# Where tokens stand

Every token of a corpus stands in one work and in one row of it, and is the word of this row that
the look-up says (`Corpus.place_of_token`). The look-up searches the ends of spans only. That this
is enough rests on the spans lying end to end: rows without words end where they start, and are
passed over, wherever in a work they are.

- `Tiles.partitionPoint_eq`: a search for the first span that stops behind a place finds the one
  that the place lies in.
- `Work.Measures`: the spans of rows are as long as the rows have words.
- `Corpus.Locates`: what a place says about its token.
-/

namespace Concordance

/-! ## Searching spans -/

namespace Tiles

variable {α : Type} {items : Array α} {range : α → Nat × Nat} {start stop : Nat}

theorem range_getElem? {index : Nat} (hindex : index < items.size) :
    (items.toList.map range)[index]? = some (range items[index]) :=
  getElem?_ranges range (Array.getElem?_eq_getElem hindex)

/-- The first span that stops behind a place is the one that the place lies in. -/
theorem partitionPoint_eq (h : Tiles stop start (items.toList.map range)) {index place : Nat}
    {item : α} (hitem : items[index]? = some item) (hstart : (range item).1 ≤ place)
    (hstop : place < (range item).2) :
    partitionPoint items (fun item => (range item).2 ≤ place) = index := by
  obtain ⟨hindex, rfl⟩ := Array.getElem?_eq_some_iff.mp hitem
  refine partitionPoint_eq_of_forall (Nat.le_of_lt hindex) (fun i hi hbefore => ?_)
    fun i hi hbehind hplace => ?_
  · -- spans before this one stop where it starts or before that
    have hstops := h.stop_le_start (range_getElem? hi) (range_getElem? hindex) hbefore
    exact decide_eq_true (Nat.le_trans hstops hstart)
  · have hstops := (h.le_of_le (range_getElem? hindex) (range_getElem? hi) hbehind).2
    exact Nat.not_le_of_lt hstop (Nat.le_trans hstops (of_decide_eq_true hplace))

/-- No span stops behind the end. -/
theorem partitionPoint_eq_size (h : Tiles stop start (items.toList.map range)) {place : Nat}
    (hplace : stop ≤ place) :
    partitionPoint items (fun item => (range item).2 ≤ place) = items.size := by
  refine partitionPoint_eq_of_forall (Nat.le_refl _) (fun i hi _ => decide_eq_true ?_)
    fun i hi hbehind => absurd hi (Nat.not_lt_of_le hbehind)
  have hmem : range items[i] ∈ items.toList.map range :=
    List.mem_map_of_mem (Array.getElem_mem_toList hi)
  exact Nat.le_trans (h.bounds hmem).2.2 hplace

end Tiles

/-! ## The words of rows -/

theorem mem_zip_of_getElem? {α β : Type} {items : List α} {spans : Array β} {index : Nat}
    {item : α} {span : β} (hitem : items[index]? = some item) (hspan : spans[index]? = some span) :
    (item, span) ∈ items.zip spans.toList :=
  List.mem_of_getElem? (List.getElem?_zip_eq_some.mpr ⟨hitem, Array.getElem?_toList ▸ hspan⟩)

/-- The words of a text. -/
def Tokenizer.words (tokenizer : Tokenizer) (text : String) : List Chunk :=
  (tokenizer.chunks text).filter (·.isWord)

/-- The spans of a work's rows are as long as the rows have words. -/
def Work.Measures (tokenizer : Tokenizer) (work : Work) (span : WorkSpan) : Prop :=
  List.Forall₂ (fun row rowSpan => rowSpan.stop = rowSpan.start + (tokenizer.words row).length)
    work.rows span.rows.toList

namespace Draft

variable {reader : Reader} {analyze : String → List Analysis} {draft grown : Draft}

theorem size_addBreak (draft : Draft) (text : String) :
    (draft.addBreak text).tokens.size = draft.tokens.size := by
  have happend : (draft.appendBreak text).tokens.size = draft.tokens.size := Array.size_modify
  unfold addBreak
  split
  case isTrue => rw [tokens_markHardBreak, happend]
  case isFalse => exact happend

theorem size_addChunk {chunk : Chunk} (h : draft.addChunk analyze chunk = .ok grown) :
    grown.tokens.size = draft.tokens.size + [chunk].countP (·.isWord) := by
  unfold addChunk at h
  split at h
  case isTrue hword =>
    obtain ⟨-, forms, entry, -, rfl⟩ := addWord_eq_ok h
    rw [List.countP_singleton, if_pos hword]
    exact Array.size_push ..
  case isFalse hbreak =>
    cases h
    rw [List.countP_singleton, if_neg hbreak, size_addBreak, Nat.add_zero]

/-- There is one more token for each word. -/
theorem size_addChunks {chunks : List Chunk}
    (h : chunks.foldlM (addChunk analyze) draft = .ok grown) :
    grown.tokens.size = draft.tokens.size + chunks.countP (·.isWord) := by
  induction chunks generalizing draft with
  | nil =>
    cases h
    rfl
  | cons chunk chunks ih =>
    rw [List.foldlM_cons] at h
    obtain ⟨next, hnext, h⟩ := bind_eq_ok.mp h
    rw [ih h, size_addChunk hnext, Nat.add_assoc, ← List.countP_append, List.singleton_append]

theorem measures_addRows {workId : String} {workStart : Nat} {previous : Option SectionId}
    {rows : List (String × SectionId)} {spans : List RowSpan}
    (h : draft.addRows reader workId workStart previous rows = .ok (grown, spans)) :
    List.Forall₂ (fun row span => span.stop = span.start + (reader.tokenizer.words row).length)
      (rows.map Prod.fst) spans := by
  induction rows generalizing draft previous spans with
  | nil =>
    cases h
    exact .nil
  | cons first rows ih =>
    obtain ⟨row, id⟩ := first
    unfold addRows at h
    obtain ⟨⟨next, span⟩, hnext, h⟩ := bind_eq_ok.mp h
    obtain ⟨⟨last, later⟩, hlast, h⟩ := bind_eq_ok.mp h
    cases h
    obtain ⟨boundary, -, hchunks, rfl⟩ := addRow_eq_ok hnext
    refine .cons ?_ (ih hlast)
    rw [Tokenizer.words, ← List.countP_eq_length_filter]
    exact size_addChunks hchunks

/-- A work leaves the works before it as they are, and the spans of its own rows are as long as the
rows have words. -/
theorem measures_addWork {works : List Work} {work : Work}
    (hworks : List.Forall₂ (Work.Measures reader.tokenizer) works draft.works.toList)
    (h : draft.addWork reader work = .ok grown) :
    List.Forall₂ (Work.Measures reader.tokenizer) (works ++ [work]) grown.works.toList := by
  obtain ⟨hlength, author, next, spans, -, hrows, -, rfl⟩ := addWork_eq_ok h
  have hsame := ((reaches_addRows hrows).trans (.single (.boundary next))).spans_eq.1
  have hmeasures := measures_addRows hrows
  rw [List.map_fst_zip (Nat.le_of_eq hlength)] at hmeasures
  rw [hsame, Array.toList_push]
  exact List.rel_append hworks (.cons hmeasures .nil)

theorem measures_of_foldlM_addWork {works : List Work}
    (h : works.foldlM (addWork reader) .empty = .ok draft) :
    List.Forall₂ (Work.Measures reader.tokenizer) works draft.works.toList := by
  have hnone : List.Forall₂ (Work.Measures reader.tokenizer) [] empty.works.toList := .nil
  exact foldlM_keeps
    (fun (draft : Draft) (works : List Work) =>
      List.Forall₂ (Work.Measures reader.tokenizer) works draft.works.toList)
    (fun hnext hworks => measures_addWork hworks hnext) h hnone

end Draft

/-- The words of a work, row after row. -/
def Work.words (tokenizer : Tokenizer) (work : Work) : List Chunk :=
  (work.rows.map tokenizer.words).flatten

theorem Work.words_eq (tokenizer : Tokenizer) (work : Work) :
    work.words tokenizer = (work.rows.flatMap tokenizer.chunks).filter (·.isWord) :=
  List.filter_flatMap.symm

namespace Work.Measures

variable {tokenizer : Tokenizer} {work : Work} {span : WorkSpan}

theorem parts (h : work.Measures tokenizer span) :
    List.Forall₂ (fun range part => range.2 = range.1 + part.length)
      (span.rows.toList.map (·.range)) (work.rows.map tokenizer.words) :=
  List.forall₂_map_left_iff.mpr (List.forall₂_map_right_iff.mpr h.flip)

/-- The words of a work are as many as its span is long. -/
theorem stop_eq (h : work.Measures tokenizer span)
    (hrows : Tiles span.stop span.start (span.rows.toList.map (·.range))) :
    span.stop = span.start + (work.words tokenizer).length :=
  hrows.stop_eq h.parts

variable {rowIndex token : Nat} {text : String} {row : RowSpan}

/-- The words of a work at the places of a row are those of the row. -/
theorem getElem?_words (h : work.Measures tokenizer span)
    (hrows : Tiles span.stop span.start (span.rows.toList.map (·.range)))
    (htext : work.rows[rowIndex]? = some text) (hrow : span.rows[rowIndex]? = some row)
    (hplace : row.start ≤ token ∧ token < row.stop) :
    (work.words tokenizer)[token - span.start]? = (tokenizer.words text)[token - row.start]? := by
  have hpart : (work.rows.map tokenizer.words)[rowIndex]? = some (tokenizer.words text) := by
    rw [List.getElem?_map, htext, Option.map_some]
  exact hrows.getElem?_flatten h.parts (getElem?_ranges RowSpan.range hrow) hpart hplace

/-- There is a word at each of the places of a row. -/
theorem lt_length_words (h : work.Measures tokenizer span) (htext : work.rows[rowIndex]? = some text)
    (hrow : span.rows[rowIndex]? = some row) (hplace : row.start ≤ token ∧ token < row.stop) :
    token - row.start < (tokenizer.words text).length := by
  have hstop := (List.forall₂_iff_zip.mp h).2 (mem_zip_of_getElem? htext hrow)
  omega

end Work.Measures

namespace WorksTaken

variable {tokenizer : Tokenizer} {draft : Draft} {works : List Work}

/-- The tokens of works are spelled as the words of their rows are. -/
theorem spellings_eq (h : WorksTaken tokenizer draft works) :
    draft.tokens.toList.map (·.spelling)
      = (works.map (Work.words tokenizer)).flatten.map (·.text) := by
  have hwords : (works.flatMap fun work => work.rows.flatMap tokenizer.chunks).filter (·.isWord)
      = (works.map (Work.words tokenizer)).flatten := by
    rw [List.filter_flatMap]
    exact congrArg works.flatMap (funext fun work => (work.words_eq tokenizer).symm)
  rw [h.tells.tokens_eq, Token.spellings_ofChunks, (alike_flatMap_chunks tokenizer works).words,
    hwords]

/-- Every token lies in the span of a row, which is the row of a text. -/
theorem exists_row (h : WorksTaken tokenizer draft works)
    (hmeasures : List.Forall₂ (Work.Measures tokenizer) works draft.works.toList) {token : Nat}
    (htoken : token < draft.tokens.size) :
    ∃ (workIndex : Nat) (work : Work) (span : WorkSpan), works[workIndex]? = some work
      ∧ draft.works[workIndex]? = some span
      ∧ Tiles span.stop span.start (span.rows.toList.map (·.range))
      ∧ ∃ (rowIndex : Nat) (text : String) (row : RowSpan), work.rows[rowIndex]? = some text
        ∧ span.rows[rowIndex]? = some row ∧ row.start ≤ token ∧ token < row.stop := by
  obtain ⟨workIndex, span, hspan, hworkPlace⟩ := h.exists_span htoken
  have hindex := (Array.getElem?_eq_some_iff.mp hspan).1
  have hwork : works[workIndex]? = some _ := List.getElem?_eq_getElem (h.size_eq ▸ hindex)
  have hpair := mem_zip_of_getElem? hwork hspan
  have hrows := (h.rows _ hpair).2.1
  obtain ⟨rowIndex, row, hrow, hplace⟩ := hrows.exists_getElem? hworkPlace.1 hworkPlace.2
  have hrowIndex : rowIndex < span.rows.toList.length := (Array.getElem?_eq_some_iff.mp hrow).1
  rw [← ((List.forall₂_iff_zip.mp hmeasures).2 hpair).length_eq] at hrowIndex
  exact ⟨workIndex, _, span, hwork, hspan, hrows, rowIndex, _, row,
    List.getElem?_eq_getElem hrowIndex, hrow, hplace⟩

/-- A token is spelled as the word of its row with as many words before it in the row as the row has
tokens before the token. -/
theorem exists_word (h : WorksTaken tokenizer draft works)
    (hmeasures : List.Forall₂ (Work.Measures tokenizer) works draft.works.toList)
    {workIndex rowIndex token : Nat} {work : Work} {span : WorkSpan} {text : String} {row : RowSpan}
    (hwork : works[workIndex]? = some work) (hspan : draft.works[workIndex]? = some span)
    (htext : work.rows[rowIndex]? = some text) (hrow : span.rows[rowIndex]? = some row)
    (hplace : row.start ≤ token ∧ token < row.stop) :
    ∃ word, (tokenizer.words text)[token - row.start]? = some word
      ∧ draft.tokens[token]?.map (·.spelling) = some word.text := by
  obtain ⟨hlength, hmeasured⟩ := List.forall₂_iff_zip.mp hmeasures
  have hparts : List.Forall₂ (fun range part => range.2 = range.1 + part.length)
      (draft.works.toList.map (·.range)) (works.map (Work.words tokenizer)) := by
    refine List.forall₂_map_left_iff.mpr (List.forall₂_map_right_iff.mpr
      (List.Forall₂.flip (List.forall₂_iff_zip.mpr ⟨hlength, fun hpair => ?_⟩)))
    exact (hmeasured hpair).stop_eq (h.rows _ hpair).2.1
  have hpair := mem_zip_of_getElem? hwork hspan
  have hrows := (h.rows _ hpair).2.1
  have hworkPlace := hrows.within (List.mem_of_getElem? (getElem?_ranges RowSpan.range hrow)) hplace
  -- the token is looked up among the words of all works, then of its work, then of its row
  have hinWork : (works.map (Work.words tokenizer)).flatten[token]?
      = (work.words tokenizer)[token - span.start]? := by
    have hpart : (works.map (Work.words tokenizer))[workIndex]? = some (work.words tokenizer) := by
      rw [List.getElem?_map, hwork, Option.map_some]
    exact h.tiles.getElem?_flatten hparts (getElem?_ranges WorkSpan.range hspan) hpart hworkPlace
  have hinRow := (hmeasured hpair).getElem?_words hrows htext hrow hplace
  have hword := List.getElem?_eq_getElem ((hmeasured hpair).lt_length_words htext hrow hplace)
  refine ⟨_, hword, ?_⟩
  rw [← Array.getElem?_toList, ← List.getElem?_map, h.spellings_eq, List.getElem?_map, hinWork,
    hinRow, hword, Option.map_some]

end WorksTaken

/-! ## Places -/

namespace Corpus

variable {corpus : Corpus} {stop token : Nat}

/-- The look-up finds the work and the row that a token lies in. -/
theorem place?_eq_some (hworks : Tiles stop 0 (corpus.works.toList.map (·.range)))
    {workIndex rowIndex : Nat} {work : WorkSpan} {row : RowSpan}
    (hwork : corpus.works[workIndex]? = some work)
    (hrows : Tiles work.stop work.start (work.rows.toList.map (·.range)))
    (hrow : work.rows[rowIndex]? = some row) (hstart : row.start ≤ token)
    (hstop : token < row.stop) :
    corpus.place? token = some ⟨workIndex, work, row, token - row.start⟩ := by
  obtain ⟨hworkStart, hworkStop⟩ := hrows.within
    (List.mem_of_getElem? (getElem?_ranges RowSpan.range hrow)) ⟨hstart, hstop⟩
  have hworkPoint : partitionPoint corpus.works (·.stop ≤ token) = workIndex :=
    hworks.partitionPoint_eq hwork hworkStart hworkStop
  have hrowPoint : partitionPoint work.rows (·.stop ≤ token) = rowIndex :=
    hrows.partitionPoint_eq hrow hstart hstop
  simp only [place?, hworkPoint, hwork, hrowPoint, hrow, Option.bind_eq_bind, Option.bind_some,
    Nat.not_lt.mpr hworkStart, Nat.not_lt.mpr hstart, if_false, Option.pure_def]

/-- The look-up finds no work behind the last. -/
theorem place?_eq_none (hworks : Tiles stop 0 (corpus.works.toList.map (·.range)))
    (hstop : stop ≤ token) : corpus.place? token = none := by
  have hpoint : partitionPoint corpus.works (·.stop ≤ token) = corpus.works.size :=
    hworks.partitionPoint_eq_size hstop
  simp only [place?, hpoint, Array.getElem?_eq_none (Nat.le_refl _), Option.bind_eq_bind,
    Option.bind_none]

/-- A place is where a token of a corpus of works stands. -/
structure Locates (corpus : Corpus) (tokenizer : Tokenizer) (works : List Work) (token : Nat)
    (place : TokenPlace) : Prop where
  /-- The work has its number. -/
  work_eq : corpus.works[place.workIndex]? = some place.work
  /-- The token lies in the work. -/
  in_work : place.work.start ≤ token ∧ token < place.work.stop
  /-- The token lies in no other work. -/
  only_work : ∀ {index : Nat} {span : WorkSpan}, corpus.works[index]? = some span →
    span.start ≤ token → token < span.stop → index = place.workIndex
  /-- The token lies in the row. -/
  in_row : place.row.start ≤ token ∧ token < place.row.stop
  /-- The offset counts the tokens before it in the row. -/
  offset_eq : place.offset = token - place.row.start
  /-- The row is a row of the work and the only one that the token lies in. The token is the word
  with this offset of the text of the row. -/
  row : ∃ rowIndex : Nat, place.work.rows[rowIndex]? = some place.row
    ∧ (∀ {index : Nat} {span : RowSpan}, place.work.rows[index]? = some span →
      span.start ≤ token → token < span.stop → index = rowIndex)
    ∧ ∃ (work : Work) (text : String) (word : Chunk), works[place.workIndex]? = some work
      ∧ work.rows[rowIndex]? = some text ∧ (tokenizer.words text)[place.offset]? = some word
      ∧ corpus.tokenText? token = some word.text

/-- Every token stands in one work and one row, where it is the word that its offset says. Numbers
from the number of tokens on have no place. -/
theorem place_of_token {reader : Reader} {ratio : UInt32} {works : List Work} {corpus : Corpus}
    (h : ofWorks reader ratio works = .ok corpus) (token : Nat) :
    (corpus.place? token = none ↔ corpus.tokenCount ≤ token)
      ∧ ∀ place, corpus.place? token = some place →
        corpus.Locates reader.tokenizer works token place := by
  obtain ⟨draft, hdraft, hfinish⟩ := ofWorks_eq_ok.mp h
  have htaken := worksTaken_of_foldlM_addWork hdraft
  have hmeasures := Draft.measures_of_foldlM_addWork hdraft
  have hlookups := (ofDraft_of_finish (sound_of_foldlM_addWork hdraft) hfinish).spells.lookups_eq
  obtain ⟨hcount, -, -, hworks, -⟩ := Draft.finish_eq_ok hfinish
  have htiles : Tiles corpus.tokenCount 0 (corpus.works.toList.map (·.range)) := by
    rw [hcount, hworks]
    exact htaken.tiles
  rcases Nat.lt_or_ge token corpus.tokenCount with hlt | hge
  case inr =>
    have hnone := place?_eq_none htiles hge
    exact ⟨iff_of_true hnone hge, fun place hplace => absurd hplace (by rw [hnone]; nofun)⟩
  obtain ⟨workIndex, work, span, hwork, hspan, hrows, rowIndex, text, row, htext, hrow, hplace⟩ :=
    htaken.exists_row hmeasures (hcount ▸ hlt)
  obtain ⟨word, hword, hspelling⟩ := htaken.exists_word hmeasures hwork hspan htext hrow hplace
  rw [← hworks] at hspan
  have hfound := place?_eq_some htiles hspan hrows hrow hplace.1 hplace.2
  have hworkPlace : span.start ≤ token ∧ token < span.stop :=
    hrows.within (List.mem_of_getElem? (getElem?_ranges RowSpan.range hrow)) hplace
  refine ⟨iff_of_false (by rw [hfound]; nofun) (Nat.not_le.mpr hlt), fun place hother => ?_⟩
  obtain rfl := Option.some.inj (hfound.symm.trans hother)
  exact {
    work_eq := hspan
    in_work := hworkPlace
    only_work := fun hother hstart hstop => htiles.index_eq (getElem?_ranges WorkSpan.range hother)
      (getElem?_ranges WorkSpan.range hspan) ⟨hstart, hstop⟩ hworkPlace
    in_row := hplace
    offset_eq := rfl
    row := ⟨rowIndex, hrow,
      fun hother hstart hstop => hrows.index_eq (getElem?_ranges RowSpan.range hother)
        (getElem?_ranges RowSpan.range hrow) ⟨hstart, hstop⟩ hplace,
      work, text, word, hwork, htext, hword,
      by rw [tokenText?, (hlookups token).1, Array.getElem?_toList, hspelling]⟩ }

/-- The third of the four tokens stands in the last row of the first work. The row before it has no
word. -/
theorem place_of_token_civil : ∃ corpus,
    ofWorks gallicReader 32 [gallicRows, civilRow] = .ok corpus
      ∧ corpus.Locates gallicReader.tokenizer [gallicRows, civilRow] 2
        ⟨0, gallicSpan, ⟨"2.1", 2, 3⟩, 0⟩
      ∧ corpus.place? 4 = none := by
  obtain ⟨corpus, hcorpus, hfinish, -⟩ := exists_ofWorks_civilRow
  obtain ⟨hcount, -, -, hworks, -⟩ := Draft.finish_eq_ok hfinish
  have hplace : corpus.place? 2 = some ⟨0, gallicSpan, ⟨"2.1", 2, 3⟩, 0⟩ := by
    rw [place?, hworks]
    decide +kernel
  refine ⟨corpus, hcorpus, (place_of_token hcorpus 2).2 _ hplace, ?_⟩
  refine (place_of_token hcorpus 4).1.mpr ?_
  rw [hcount]
  decide +kernel

end Corpus

end Concordance
