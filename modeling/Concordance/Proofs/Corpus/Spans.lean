import Concordance.Proofs.Corpus.Wording

/-!
# The spans of a corpus

The spans of works, rows and authors are noted at different moments of a build, and fit together
all the same (`Corpus.spans_of_works`). Works and rows lie end to end. An author has the tokens of a
run of works, as a work of an author who has one already is taken only right behind it.

- `Work.CitedAs`: a span belongs to a work.
- `AuthorSpan.Covers`: a span belongs to the author of some works, and to no other. One more work
  keeps this (`AuthorSpan.Covers.push_of_ne`, `AuthorSpan.Covers.push_next`).
- `Draft.Notes`: the works and authors of a draft have their spans. Every work keeps this
  (`Draft.Notes.addWork`).
-/

namespace Concordance

/-- A span belongs to a work: it is cited as the work is, and so are its rows. -/
structure Work.CitedAs (work : Work) (span : WorkSpan) : Prop where
  id_eq : span.id = work.id
  name_eq : span.name = work.name
  author_eq : span.author = work.author
  authorCode_eq : span.authorCode = work.authorCode
  /-- Every row has a span. -/
  size_rows : span.rows.size = work.rows.length
  /-- The rows are cited by their section ids. -/
  labels_eq : span.rows.toList.map (·.sectionId) = work.rowIds.map SectionId.label

/-- A span belongs to the author who is cited by a name: the works of the author are those from the
first to the last one, and the tokens are theirs. -/
structure AuthorSpan.Covers (author : AuthorSpan) (code : String) (works : Array WorkSpan) :
    Prop where
  firstWork_le : author.firstWork ≤ author.lastWork
  /-- The author is named as in the first work. -/
  first : ∃ span, works[author.firstWork]? = some span ∧ author.start = span.start
    ∧ author.name = span.author
  last : ∃ span, works[author.lastWork]? = some span ∧ author.stop = span.stop
  authorCode_iff : ∀ {index span}, works[index]? = some span →
    (span.authorCode = code ↔ author.firstWork ≤ index ∧ index ≤ author.lastWork)

namespace AuthorSpan.Covers

variable {author : AuthorSpan} {code : String} {works : Array WorkSpan}

theorem lastWork_lt (h : author.Covers code works) : author.lastWork < works.size := by
  obtain ⟨span, hspan, -⟩ := h.last
  exact (Array.getElem?_eq_some_iff.mp hspan).1

/-- The author has a work. -/
theorem exists_mem (h : author.Covers code works) : ∃ span ∈ works, span.authorCode = code := by
  obtain ⟨span, hspan, -⟩ := h.last
  exact ⟨span, Array.mem_of_getElem? hspan,
    (h.authorCode_iff hspan).mpr ⟨h.firstWork_le, Nat.le_refl _⟩⟩

/-- The author of the last work may have one more, and no other author who has works already. -/
theorem lastWork_add_one_eq_iff (h : author.Covers code works) :
    author.lastWork + 1 = works.size
      ↔ ∃ span, works.back? = some span ∧ span.authorCode = code := by
  have hlt := h.lastWork_lt
  have hback : works.back? = works[works.size - 1]? := Array.back?_eq_getElem?
  rw [hback]
  constructor
  · intro heq
    obtain ⟨span, hspan, -⟩ := h.last
    have hindex : works.size - 1 = author.lastWork := by omega
    rw [hindex]
    exact ⟨span, hspan, (h.authorCode_iff hspan).mpr ⟨h.firstWork_le, Nat.le_refl _⟩⟩
  · rintro ⟨span, hspan, hcode⟩
    have hle := ((h.authorCode_iff hspan).mp hcode).2
    omega

variable {span : WorkSpan}

/-- What stands at a place stands there when there is one more work. -/
theorem getElem?_push_of_some {index : Nat} {found : WorkSpan} (hfound : works[index]? = some found)
    (span : WorkSpan) : (works.push span)[index]? = some found := by
  have hlt := (Array.getElem?_eq_some_iff.mp hfound).1
  rw [Array.getElem?_push_lt hlt, ← hfound, Array.getElem?_eq_getElem hlt]

/-- What holds of works at their places, and of one more behind them, holds of all. -/
theorem forall_push {holds : Nat → WorkSpan → Prop}
    (hbefore : ∀ {index found}, works[index]? = some found → holds index found)
    (hnew : holds works.size span) :
    ∀ {index found}, (works.push span)[index]? = some found → holds index found := by
  intro index found hfound
  rw [Array.getElem?_push] at hfound
  by_cases hlast : index = works.size
  · rw [if_pos hlast] at hfound
    cases hfound
    exact hlast ▸ hnew
  · rw [if_neg hlast] at hfound
    exact hbefore hfound

/-- A work of another author changes nothing. -/
theorem push_of_ne (h : author.Covers code works) (hne : span.authorCode ≠ code) :
    author.Covers code (works.push span) := by
  have hlt := h.lastWork_lt
  obtain ⟨first, hfirst, hstart⟩ := h.first
  obtain ⟨last, hlast, hstop⟩ := h.last
  exact ⟨h.firstWork_le, ⟨first, getElem?_push_of_some hfirst span, hstart⟩,
    ⟨last, getElem?_push_of_some hlast span, hstop⟩,
    forall_push h.authorCode_iff (iff_of_false hne (by omega))⟩

/-- The next work of the author extends the span. -/
theorem push_next (h : author.Covers code works) (hcode : span.authorCode = code)
    (hnext : author.lastWork + 1 = works.size) :
    ({ author with lastWork := works.size, stop := span.stop } : AuthorSpan).Covers code
      (works.push span) := by
  have hle : author.firstWork ≤ works.size := by
    have := h.firstWork_le
    omega
  have hbefore : ∀ {index : Nat} {found : WorkSpan}, works[index]? = some found →
      (found.authorCode = code ↔ author.firstWork ≤ index ∧ index ≤ works.size) := by
    intro index found hfound
    have hlt := (Array.getElem?_eq_some_iff.mp hfound).1
    rw [h.authorCode_iff hfound]
    omega
  have hnew : span.authorCode = code ↔ author.firstWork ≤ works.size ∧ works.size ≤ works.size :=
    iff_of_true hcode ⟨hle, Nat.le_refl _⟩
  obtain ⟨first, hfirst, hstart⟩ := h.first
  exact ⟨hle, ⟨first, getElem?_push_of_some hfirst span, hstart⟩,
    ⟨span, Array.getElem?_push_size, rfl⟩, forall_push hbefore hnew⟩

/-- The first work of an author. -/
theorem push_new (hothers : ∀ other ∈ works, other.authorCode ≠ span.authorCode) :
    (⟨span.author, works.size, works.size, span.start, span.stop⟩ : AuthorSpan).Covers
      span.authorCode (works.push span) := by
  have hbefore : ∀ {index : Nat} {found : WorkSpan}, works[index]? = some found →
      (found.authorCode = span.authorCode ↔ works.size ≤ index ∧ index ≤ works.size) := by
    intro index found hfound
    have hlt := (Array.getElem?_eq_some_iff.mp hfound).1
    exact iff_of_false (hothers found (Array.mem_of_getElem? hfound)) (by omega)
  have hnew : span.authorCode = span.authorCode
      ↔ works.size ≤ works.size ∧ works.size ≤ works.size :=
    iff_of_true rfl ⟨Nat.le_refl _, Nat.le_refl _⟩
  exact ⟨Nat.le_refl _, ⟨span, Array.getElem?_push_size, rfl, rfl⟩,
    ⟨span, Array.getElem?_push_size, rfl⟩, forall_push hbefore hnew⟩

/-- When works lie end to end, the tokens of an author are those of the works. -/
theorem contains_iff (h : author.Covers code works) {start stop : Nat}
    (htiles : Tiles stop start (works.toList.map (·.range))) {index token : Nat}
    (hspan : works[index]? = some span) (hstart : span.start ≤ token) (hstop : token < span.stop) :
    (author.start ≤ token ∧ token < author.stop) ↔ span.authorCode = code := by
  have hrange := getElem?_ranges WorkSpan.range hspan
  obtain ⟨first, hfirst, hauthorStart, -⟩ := h.first
  obtain ⟨last, hlast, hauthorStop⟩ := h.last
  have hfirstRange := getElem?_ranges WorkSpan.range hfirst
  have hlastRange := getElem?_ranges WorkSpan.range hlast
  rw [h.authorCode_iff hspan, hauthorStart, hauthorStop]
  constructor
  · rintro ⟨hbehind, hbefore⟩
    constructor
    · refine Nat.le_of_not_lt fun hlt => ?_
      have hle : span.stop ≤ first.start := htiles.stop_le_start hrange hfirstRange hlt
      omega
    · refine Nat.le_of_not_lt fun hlt => ?_
      have hle : last.stop ≤ span.start := htiles.stop_le_start hlastRange hrange hlt
      omega
  · rintro ⟨hbehind, hbefore⟩
    have hlow : first.start ≤ span.start :=
      (htiles.le_of_le hfirstRange hrange hbehind).1
    have hhigh : span.stop ≤ last.stop :=
      (htiles.le_of_le hrange hlastRange hbefore).2
    omega

/-- When works lie end to end and each has a token, so has an author. -/
theorem bounds (h : author.Covers code works) {start stop : Nat}
    (htiles : Tiles stop start (works.toList.map (·.range)))
    (hfilled : ∀ span ∈ works, span.start < span.stop) :
    author.start < author.stop ∧ author.stop ≤ stop := by
  obtain ⟨first, hfirst, hstart, -⟩ := h.first
  obtain ⟨last, hlast, hstop⟩ := h.last
  have hlt := hfilled first (Array.mem_of_getElem? hfirst)
  have hlastRange := getElem?_ranges WorkSpan.range hlast
  have hle : first.stop ≤ last.stop :=
    (htiles.le_of_le (getElem?_ranges WorkSpan.range hfirst) hlastRange h.firstWork_le).2
  have hbound : last.stop ≤ stop := (htiles.bounds (List.mem_of_getElem? hlastRange)).2.2
  omega

end AuthorSpan.Covers

/-! ## Drafts -/

namespace Draft

variable {reader : Reader} {draft grown : Draft}

/-- The spans of rows carry the labels of their section ids. -/
theorem labels_addRows {workId : String} {workStart : Nat} {previous : Option SectionId}
    {rows : List (String × SectionId)} {spans : List RowSpan}
    (h : draft.addRows reader workId workStart previous rows = .ok (grown, spans)) :
    spans.map (·.sectionId) = rows.map fun row => row.2.label := by
  induction rows generalizing draft previous spans with
  | nil =>
    cases h
    rfl
  | cons first rows ih =>
    obtain ⟨row, id⟩ := first
    unfold addRows at h
    obtain ⟨⟨next, span⟩, hnext, h⟩ := bind_eq_ok.mp h
    obtain ⟨⟨last, later⟩, hlast, h⟩ := bind_eq_ok.mp h
    cases h
    obtain ⟨boundary, -, -, rfl⟩ := addRow_eq_ok hnext
    rw [List.map_cons, List.map_cons, ih hlast]

/-- An author with one more work is new, or has the work before. -/
theorem authorWith_eq_ok {work : Work} {author : AuthorSpan} :
    draft.authorWith work = .ok author
      ↔ (draft.authors[work.authorCode]? = none ∧ author = ⟨work.author, draft.works.size,
          draft.works.size, draft.tokens.size, draft.tokens.size⟩)
        ∨ ∃ former, draft.authors[work.authorCode]? = some former
          ∧ former.lastWork + 1 = draft.works.size
          ∧ author = { former with lastWork := draft.works.size } := by
  unfold authorWith
  cases hformer : draft.authors[work.authorCode]? with
  | none => simp [eq_comm]
  | some former =>
    by_cases hnext : former.lastWork + 1 = draft.works.size
    · simp [hnext, eq_comm]
    · simp [hnext]

/-- The works and the authors of a draft have their spans. -/
structure Notes (draft : Draft) (works : List Work) : Prop where
  cites : List.Forall₂ Work.CitedAs works draft.works.toList
  covers : ∀ {code : String} {author : AuthorSpan}, draft.authors[code]? = some author →
    author.Covers code draft.works
  isSome_of_mem : ∀ {span}, span ∈ draft.works → draft.authors[span.authorCode]?.isSome = true

namespace Notes

variable {works : List Work}

theorem empty : Notes .empty [] where
  cites := .nil
  covers h := by
    rw [Draft.empty, Std.TreeMap.getElem?_emptyc] at h
    cases h
  isSome_of_mem h := by
    cases h
    contradiction

/-- The authors are those of the works. -/
theorem isSome_iff (h : draft.Notes works) {code : String} :
    draft.authors[code]?.isSome = true ↔ ∃ span ∈ draft.works, span.authorCode = code := by
  constructor
  · intro hsome
    obtain ⟨author, hauthor⟩ := Option.isSome_iff_exists.mp hsome
    exact (h.covers hauthor).exists_mem
  · rintro ⟨span, hspan, rfl⟩
    exact h.isSome_of_mem hspan

/-- The span of an author covers one more work. -/
theorem covers_push (h : draft.Notes works) {work : Work} {author : AuthorSpan}
    (hauthor : draft.authorWith work = .ok author) {span : WorkSpan}
    (hcode : span.authorCode = work.authorCode) (hname : span.author = work.author)
    (hstart : span.start = draft.tokens.size) {stop : Nat} (hstop : span.stop = stop) :
    ({ author with stop } : AuthorSpan).Covers work.authorCode (draft.works.push span) := by
  subst hstop
  rcases authorWith_eq_ok.mp hauthor with ⟨hnone, rfl⟩ | ⟨former, hformer, hnext, rfl⟩
  · have hnew : ∀ other ∈ draft.works, other.authorCode ≠ span.authorCode := by
      intro other hother heq
      have hsome := h.isSome_of_mem hother
      rw [heq, hcode, hnone] at hsome
      cases hsome
    rw [← hcode, ← hname, ← hstart]
    exact .push_new hnew
  · exact (h.covers hformer).push_next hcode hnext

/-- A work keeps the spans in place, and has its own. -/
theorem addWork (h : draft.Notes works) {work : Work}
    (hgrown : draft.addWork reader work = .ok grown) : grown.Notes (works ++ [work]) := by
  obtain ⟨hlength, author, next, spans, hauthor, hrows, -, rfl⟩ := addWork_eq_ok hgrown
  -- reading the rows has left the spans as they were
  obtain ⟨hworks, hauthors⟩ :=
    ((reaches_addRows hrows).trans (.single (.boundary next))).spans_eq
  rw [hworks, hauthors]
  have hlabels := labels_addRows hrows
  refine ⟨?_, ?_, ?_⟩
  · show List.Forall₂ _ _ (draft.works.push _).toList
    rw [Array.toList_push]
    refine List.rel_append h.cites (.cons ⟨rfl, rfl, rfl, rfl, ?_, ?_⟩ .nil)
    · have hcount := congrArg List.length hlabels
      rw [List.length_map, List.length_map, List.length_zip, ← hlength, Nat.min_self] at hcount
      exact hcount
    · calc spans.map (·.sectionId)
          = ((work.rows.zip work.rowIds).map Prod.snd).map SectionId.label := by
            rw [hlabels, List.map_map]
            rfl
        _ = work.rowIds.map SectionId.label := by
            rw [List.map_snd_zip (Nat.le_of_eq hlength.symm)]
  · intro code found hfound
    rw [Std.TreeMap.getElem?_insert] at hfound
    by_cases hsame : compare work.authorCode code = .eq
    · rw [if_pos hsame] at hfound
      cases hfound
      rw [← Std.LawfulEqCmp.eq_of_compare hsame]
      exact h.covers_push hauthor rfl rfl rfl rfl
    · rw [if_neg hsame] at hfound
      exact (h.covers hfound).push_of_ne fun heq => hsame (heq ▸ Std.ReflCmp.compare_self)
  · intro span hspan
    rw [Std.TreeMap.getElem?_insert]
    by_cases hsame : compare work.authorCode span.authorCode = .eq
    · rw [if_pos hsame]
      rfl
    · rw [if_neg hsame]
      rcases Array.mem_push.mp hspan with hbefore | rfl
      · exact h.isSome_of_mem hbefore
      · exact absurd Std.ReflCmp.compare_self hsame

/-- Works are taken one after the other. -/
theorem addWorks (h : draft.Notes works) {later : List Work}
    (hgrown : later.foldlM (Draft.addWork reader) draft = .ok grown) :
    grown.Notes (works ++ later) :=
  foldlM_keeps Notes (fun hnext hnotes => hnotes.addWork hnext) hgrown h

end Notes

/-- Taking works from the start. -/
theorem notes_of_foldlM_addWork {works : List Work}
    (h : works.foldlM (addWork reader) .empty = .ok draft) : draft.Notes works :=
  Notes.empty.addWorks h

end Draft

namespace Corpus

/-- The spans of a corpus fit together. The works lie end to end, in order, each with a token, and
each is made of its rows end to end, under the labels of their section ids. The works of an author
are those from the first to the last one, and the author has their tokens, so every token belongs to
just one author. -/
theorem spans_of_works {reader : Reader} {ratio : UInt32} {works : List Work} {corpus : Corpus}
    (h : ofWorks reader ratio works = .ok corpus) :
    Tiles corpus.tokenCount 0 (corpus.works.toList.map (·.range))
      ∧ List.Forall₂ (fun work span => work.CitedAs span ∧ span.start < span.stop
          ∧ Tiles span.stop span.start (span.rows.toList.map (·.range)))
        works corpus.works.toList
      ∧ (∀ code, (corpus.author? code).isSome = true
        ↔ ∃ span ∈ corpus.works, span.authorCode = code)
      ∧ (∀ code author, corpus.author? code = some author → author.Covers code corpus.works
        ∧ author.start < author.stop ∧ author.stop ≤ corpus.tokenCount)
      ∧ ∀ token < corpus.tokenCount, ∃! code, ∃ author, corpus.author? code = some author
        ∧ author.start ≤ token ∧ token < author.stop := by
  obtain ⟨draft, hdraft, hfinish⟩ := ofWorks_eq_ok.mp h
  have htaken := worksTaken_of_foldlM_addWork hdraft
  have hnotes := Draft.notes_of_foldlM_addWork hdraft
  obtain ⟨hcount, -, -, hworks, hauthors, -⟩ := Draft.finish_eq_ok hfinish
  unfold author?
  rw [hcount, hworks, hauthors]
  obtain ⟨hlength, hcited⟩ := List.forall₂_iff_zip.mp hnotes.cites
  refine ⟨htaken.tiles, List.forall₂_iff_zip.mpr ⟨hlength, ?_⟩, fun _ => hnotes.isSome_iff, ?_, ?_⟩
  · intro work span hpair
    obtain ⟨hfilled, hrows, -⟩ := htaken.rows _ hpair
    exact ⟨hcited hpair, hfilled, hrows⟩
  · intro code author hauthor
    have hcovers := hnotes.covers hauthor
    exact ⟨hcovers, hcovers.bounds htaken.tiles fun _ => htaken.start_lt_stop⟩
  · intro token htoken
    obtain ⟨index, span, hspan, hstart, hstop⟩ := htaken.exists_span htoken
    obtain ⟨author, hauthor⟩ :=
      Option.isSome_iff_exists.mp (hnotes.isSome_of_mem (Array.mem_of_getElem? hspan))
    refine ⟨span.authorCode, ⟨author, hauthor, ?_⟩, ?_⟩
    · exact ((hnotes.covers hauthor).contains_iff htaken.tiles hspan hstart hstop).mpr rfl
    · rintro code ⟨other, hother, hplace⟩
      exact (((hnotes.covers hother).contains_iff htaken.tiles hspan hstart hstop).mp hplace).symm

/-! ### A corpus of two works -/

/-- One more work of the author of the Gallic War. It starts with a bracket. -/
def civilRow : Work where
  id := "civil"
  name := "Civil War"
  author := "Caesar"
  authorCode := "caesar"
  rows := ["(Gallia"]
  rowIds := [["1"]]

/-- The spans of the work and of its row, behind the four rows of the Gallic War. -/
def civilSpan : WorkSpan where
  id := "civil"
  name := "Civil War"
  author := "Caesar"
  authorCode := "caesar"
  start := 3
  stop := 4
  rows := #[⟨"1", 3, 4⟩]

/-- The draft with the row. -/
def civilFirst : Draft := withGallia (gallicNoted.addBreak "(")

/-- The draft with both works. -/
def civilNoted : Draft :=
  { civilFirst.markHardBreak with
    works := #[gallicSpan, civilSpan]
    authors := gallicNoted.authors.insert "caesar" ⟨"Caesar", 0, 1, 0, 4⟩ }

theorem addWork_civilRow : gallicNoted.addWork gallicReader civilRow = .ok civilNoted := by
  have hrow : gallicNoted.addRow gallicReader "civil" 3 none "(Gallia" ["1"]
      = .ok (civilFirst, ⟨"1", 3, 4⟩) := by
    have hchunks : gallicReader.tokenizer.chunks "(Gallia" = [⟨"(", false⟩, ⟨"Gallia", true⟩] := by
      decide +kernel
    have hlabel : SectionId.label ["1"] = "1" := by decide +kernel
    have hword : (gallicNoted.addBreak "(").addWord gallicReader.analyze "Gallia"
        = .ok civilFirst :=
      addWord_withGallia (by decide +kernel) Std.HashMap.getElem?_insert_self rfl
    unfold Draft.addRow
    rw [hchunks, hlabel]
    exact bind_eq_ok.mpr ⟨none, rfl, bind_eq_ok.mpr ⟨civilFirst, bind_eq_ok.mpr
      ⟨_, rfl, bind_eq_ok.mpr ⟨civilFirst, hword, rfl⟩⟩, rfl⟩⟩
  have hauthor : gallicNoted.authorWith civilRow = .ok ⟨"Caesar", 0, 1, 0, 3⟩ := by
    refine Draft.authorWith_eq_ok.mpr (.inr ⟨⟨"Caesar", 0, 0, 0, 3⟩, ?_, rfl, rfl⟩)
    exact Std.TreeMap.getElem?_insert_self
  unfold Draft.addWork
  simp only [guard_eq_ok]
  exact ⟨by decide, by decide, bind_eq_ok.mpr ⟨_, hauthor, bind_eq_ok.mpr
    ⟨(civilFirst, [⟨"1", 3, 4⟩]), bind_eq_ok.mpr ⟨_, hrow, rfl⟩,
      guard_eq_ok.mpr ⟨by decide +kernel, rfl⟩⟩⟩⟩

/-- The corpus of the two works is that of the draft with both. -/
theorem ofWorks_civilRow {ratio : UInt32} {corpus : Corpus}
    (h : civilNoted.finish ratio = .ok corpus) :
    ofWorks gallicReader ratio [gallicRows, civilRow] = .ok corpus :=
  ofWorks_eq_ok.mpr ⟨civilNoted, bind_eq_ok.mpr ⟨gallicNoted, addWork_gallicRows,
    bind_eq_ok.mpr ⟨civilNoted, addWork_civilRow, rfl⟩⟩, h⟩

/-- The two works are built. -/
theorem exists_ofWorks_civilRow : ∃ corpus,
    ofWorks gallicReader 32 [gallicRows, civilRow] = .ok corpus
      ∧ civilNoted.finish 32 = .ok corpus ∧ corpus.breakText? 2 = some ".(" := by
  have hfinish : (civilNoted.finish 32).map (·.breakText? 2) = .ok (some ".(") := by
    decide +kernel
  obtain ⟨corpus, hcorpus, hbreak⟩ := map_eq_ok.mp hfinish
  exact ⟨corpus, ofWorks_civilRow hcorpus, hcorpus, hbreak⟩

/-- The author of both works has their tokens, and the third row of the first work has none. -/
theorem spans_of_works_civil : ∃ corpus,
    ofWorks gallicReader 32 [gallicRows, civilRow] = .ok corpus
      ∧ corpus.works = #[gallicSpan, civilSpan]
      ∧ (⟨"Caesar", 0, 1, 0, 4⟩ : AuthorSpan).Covers "caesar" corpus.works
      ∧ Tiles 3 0 (gallicSpan.rows.toList.map (·.range))
      ∧ ∃! code, ∃ author, corpus.author? code = some author ∧ author.start ≤ 3
        ∧ 3 < author.stop := by
  obtain ⟨corpus, hcorpus, hfinish, -⟩ := exists_ofWorks_civilRow
  obtain ⟨hcount, -, -, hworks, hauthors, -⟩ := Draft.finish_eq_ok hfinish
  obtain ⟨-, hrows, -, hcovers, hunique⟩ := spans_of_works hcorpus
  have hauthor : corpus.author? "caesar" = some ⟨"Caesar", 0, 1, 0, 4⟩ := by
    unfold author?
    rw [hauthors]
    exact Std.TreeMap.getElem?_insert_self
  rw [hworks] at hrows
  refine ⟨corpus, hcorpus, hworks, (hcovers _ _ hauthor).1, ?_, hunique 3 ?_⟩
  · obtain - | ⟨⟨-, -, htiles⟩, -⟩ := hrows
    exact htiles
  · rw [hcount]
    decide +kernel

end Corpus

end Concordance
