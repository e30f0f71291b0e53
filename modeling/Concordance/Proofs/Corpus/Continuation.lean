import Concordance.Proofs.Corpus.Ratio
import Concordance.Proofs.Corpus.Spans
import Concordance.Proofs.Forms.Layout

/-!
# More works

When more works are taken, what is known of the tokens so far does not change: neither the lists
they are in, nor their places in the text, nor their records (`Corpus.prolongs_of_append`).

- `Draft.Settled`: the tokens of a draft are as they were in another. Every step of a build keeps
  this (`Draft.Settled.step`).
- `Draft.EndsMarked`: the last token stands before a hard boundary, as it does behind a work. A mark
  that a later work puts on it changes nothing.
- `Corpus.Prolongs`: a corpus goes on where another stops.

The text behind the last token is the exception. A row boundary leaves nothing behind a token of an
earlier work, but text before the first word of a work does: it is put behind the last token there
is (`Corpus.breaks_of_next_work`).
-/

namespace Concordance

namespace Draft

/-! ## Settled tokens -/

/-- The last token, if there is one, stands before a hard boundary. -/
def EndsMarked (draft : Draft) : Prop :=
  ∀ token : UInt32, token.toNat + 1 = draft.tokens.size → token ∈ draft.index.tokensOf .hardBreak

/-- The tokens of a draft are in the same lists in another draft, and have the same records. -/
structure Settled (base draft : Draft) : Prop where
  size_le : base.tokens.size ≤ draft.tokens.size
  /-- Every token has a 32-bit number. -/
  size_le_max : draft.tokens.size ≤ maxTokens
  mem_tokensOf : ∀ (key : IndexKey) (token : UInt32), token.toNat < base.tokens.size →
    (token ∈ draft.index.tokensOf key ↔ token ∈ base.index.tokensOf key)
  records : base.forms.records.toList <+: draft.forms.records.toList
  tokenSpans : base.forms.tokenSpans.toList <+: draft.forms.tokenSpans.toList

variable {analyze : String → List Analysis} {reader : Reader} {base draft grown : Draft}

namespace Settled

theorem refl (hsize : base.tokens.size ≤ maxTokens) : base.Settled base where
  size_le := Nat.le_refl _
  size_le_max := hsize
  mem_tokensOf _ _ _ := Iff.rfl
  records := List.prefix_refl _
  tokenSpans := List.prefix_refl _

/-- A word gets a number that no settled token has. -/
theorem addWord (h : base.Settled draft) {spelling : String}
    (hword : draft.addWord analyze spelling = .ok grown) : base.Settled grown := by
  obtain ⟨hroom, forms, entry, hadd, rfl⟩ := addWord_eq_ok hword
  obtain ⟨⟨more, hrecords⟩, hspans⟩ := FormTable.grows_of_add hadd
  have hle := h.size_le
  refine ⟨?_, ?_, ?_, ?_, ?_⟩
  · rw [Array.size_push]
    omega
  · rw [Array.size_push]
    exact hroom
  · intro key token htoken
    have hnumber : (UInt32.ofNat draft.tokens.size).toNat = draft.tokens.size :=
      UInt32.toNat_ofNat_of_lt' (Nat.lt_trans hroom (by decide))
    have hne : token ≠ UInt32.ofNat draft.tokens.size := by
      rintro rfl
      omega
    rw [DraftIndex.mem_tokensOf_addWord, h.mem_tokensOf key token htoken]
    simp only [hne, and_false, or_false]
  · show base.forms.records.toList <+: forms.records.toList
    rw [hrecords, Array.toList_appendList]
    exact h.records.trans (List.prefix_append _ _)
  · show base.forms.tokenSpans.toList <+: forms.tokenSpans.toList
    rw [hspans, Array.toList_push]
    exact h.tokenSpans.trans (List.prefix_append _ _)

/-- Text behind the last token changes no list and no record. -/
theorem appendBreak (h : base.Settled draft) (text : String) :
    base.Settled (draft.appendBreak text) := by
  have hsize : (draft.appendBreak text).tokens.size = draft.tokens.size := Array.size_modify
  exact ⟨hsize ▸ h.size_le, hsize ▸ h.size_le_max, h.mem_tokensOf, h.records, h.tokenSpans⟩

/-- A mark on the last of the settled tokens is one that it has. -/
theorem markHardBreak (hends : base.EndsMarked) (h : base.Settled draft) :
    base.Settled draft.markHardBreak := by
  have hle := h.size_le
  refine ⟨?_, ?_, ?_, ?_, ?_⟩
  · rw [tokens_markHardBreak]
    exact hle
  · rw [tokens_markHardBreak]
    exact h.size_le_max
  · intro key token htoken
    rw [mem_tokensOf_markHardBreak h.size_le_max, h.mem_tokensOf key token htoken]
    refine or_iff_left_of_imp ?_
    rintro ⟨rfl, hlast⟩
    exact hends token (by omega)
  · rw [forms_markHardBreak]
    exact h.records
  · rw [forms_markHardBreak]
    exact h.tokenSpans

/-- Every step of a build keeps the tokens settled. -/
theorem step (hends : base.EndsMarked) (hstep : Step analyze draft grown) (h : base.Settled draft) :
    base.Settled grown := by
  cases hstep with
  | reading hread =>
    cases hread with
    | word hword => exact h.addWord hword
    | text text => exact h.appendBreak text
    | boundary => exact h.markHardBreak hends
  | spans works authors =>
    exact ⟨h.size_le, h.size_le_max, h.mem_tokensOf, h.records, h.tokenSpans⟩

/-- The list of a key has the settled tokens that it had. -/
theorem filter_tokensOf (h : base.Settled draft) (hbase : base.index.Ascends base.tokens.size)
    (hdraft : draft.index.Ascends draft.tokens.size) (key : IndexKey) :
    (draft.index.tokensOf key).filter (fun token => token.toNat < base.tokens.size)
      = base.index.tokensOf key := by
  obtain ⟨hascends, hlt⟩ := hbase.tokensOf key
  refine List.Pairwise.eq_of_mem_iff ((hdraft.tokensOf key).1.filter _) hascends ?_
  intro token
  rw [List.mem_filter, decide_eq_true_iff]
  constructor
  · rintro ⟨hmem, htoken⟩
    exact (h.mem_tokensOf key token htoken).mp hmem
  · intro hmem
    exact ⟨(h.mem_tokensOf key token (hlt token hmem)).mpr hmem, hlt token hmem⟩

end Settled

/-! ## Works -/

/-- A work ends before a hard boundary. -/
theorem endsMarked_of_addWork (hsound : draft.Sound reader.analyze) {work : Work}
    (h : draft.addWork reader work = .ok grown) : grown.EndsMarked := by
  obtain ⟨-, author, next, spans, -, hrows, -, rfl⟩ := addWork_eq_ok h
  have hnext : next.Sound reader.analyze :=
    (reaches_addRows hrows).reading.keeps Sound.step hsound
  intro token htoken
  refine (mem_markHardBreak hnext.size_le token).mpr (.inr ?_)
  rw [← tokens_markHardBreak next]
  exact htoken

theorem endsMarked_of_foldlM_addWork {works : List Work}
    (h : works.foldlM (addWork reader) .empty = .ok draft) : draft.EndsMarked := by
  rcases List.eq_nil_or_concat' works with rfl | ⟨before, work, rfl⟩
  · cases h
    intro token htoken
    cases htoken
  · rw [List.foldlM_append] at h
    obtain ⟨between, hbetween, h⟩ := bind_eq_ok.mp h
    obtain ⟨last, hlast, h⟩ := bind_eq_ok.mp h
    cases h
    exact endsMarked_of_addWork (Corpus.sound_of_foldlM_addWork hbetween) hlast

/-- The works that are noted stay, and one more is noted behind them. -/
theorem works_prefix_of_addWork {work : Work} (h : draft.addWork reader work = .ok grown) :
    draft.works.toList <+: grown.works.toList := by
  obtain ⟨-, author, next, spans, -, hrows, -, rfl⟩ := addWork_eq_ok h
  show draft.works.toList <+: (next.markHardBreak.works.push _).toList
  rw [works_markHardBreak, (reaches_addRows hrows).spans_eq.1, Array.toList_push]
  exact List.prefix_append _ _

theorem works_prefix_of_foldlM_addWork {works : List Work}
    (h : works.foldlM (addWork reader) draft = .ok grown) :
    draft.works.toList <+: grown.works.toList := by
  induction works generalizing draft with
  | nil =>
    cases h
    exact List.prefix_refl _
  | cons work works ih =>
    rw [List.foldlM_cons] at h
    obtain ⟨next, hnext, h⟩ := bind_eq_ok.mp h
    exact (works_prefix_of_addWork hnext).trans (ih h)

end Draft

/-! ## Text -/

namespace CorpusText.Spells

variable {text later : CorpusText} {tokens more : List Token} {gap : String}

/-- A token keeps its places when text comes behind the last token, and further tokens do. -/
theorem places_eq (h : text.Spells tokens)
    (hlater : later.Spells (Token.extendLast gap tokens ++ more)) {index : Nat}
    (hindex : index < tokens.length) :
    later.tokenStarts[index]? = text.tokenStarts[index]?
      ∧ later.breakStarts[index]? = text.breakStarts[index]? := by
  have hlength : index < (Token.extendLast gap tokens).length := by
    rw [Token.length_extendLast]
    exact hindex
  have htoken : tokens[index]? = some tokens[index] := List.getElem?_eq_getElem hindex
  -- the token is spelled as before, and so are those before it
  obtain ⟨token, hfound, hspelling⟩ : ∃ token,
      (Token.extendLast gap tokens ++ more)[index]? = some token
        ∧ token.spelling = tokens[index].spelling := by
    rw [List.getElem?_append_left hlength, Token.getElem?_extendLast, htoken]
    refine ⟨_, rfl, ?_⟩
    split
    case isTrue => rfl
    case isFalse => rfl
  have htake : (Token.extendLast gap tokens ++ more).take index = tokens.take index := by
    rw [List.take_append_of_le_length (Nat.le_of_lt hlength), Token.take_extendLast gap hindex]
  obtain ⟨start, stop, hstart, hstop, hbefore, hbehind⟩ := h.places index _ htoken
  obtain ⟨start', stop', hstart', hstop', hbefore', hbehind'⟩ := hlater.places index token hfound
  rw [htake] at hbefore'
  have hsameStart : start' = start := UInt32.toNat_inj.mp (hbefore'.trans hbefore.symm)
  have hsameStop : stop' = stop := by
    rw [← UInt32.toNat_inj, hbehind', hbehind, hspelling, hsameStart]
  rw [hstart, hstart', hstop, hstop', hsameStart, hsameStop]
  exact ⟨rfl, rfl⟩

theorem tokenStarts_prefix (h : text.Spells tokens)
    (hlater : later.Spells (Token.extendLast gap tokens ++ more)) :
    text.tokenStarts.toList <+: later.tokenStarts.toList := by
  rw [List.prefix_iff_getElem?]
  intro index hindex
  have htoken : index < tokens.length := h.size_tokenStarts ▸ hindex
  rw [Array.getElem?_toList, (h.places_eq hlater htoken).1, ← Array.getElem?_toList,
    List.getElem?_eq_getElem hindex]

theorem breakStarts_prefix (h : text.Spells tokens)
    (hlater : later.Spells (Token.extendLast gap tokens ++ more)) :
    text.breakStarts.toList <+: later.breakStarts.toList := by
  rw [List.prefix_iff_getElem?]
  intro index hindex
  have htoken : index < tokens.length := h.size_breakStarts ▸ hindex
  rw [Array.getElem?_toList, (h.places_eq hlater htoken).2, ← Array.getElem?_toList,
    List.getElem?_eq_getElem hindex]

/-- The text goes on behind the last token. -/
theorem exists_text_append (h : text.Spells tokens)
    (hlater : later.Spells (Token.extendLast gap tokens ++ more)) :
    ∃ rest, later.text = text.text ++ rest := by
  rw [h.text_eq, hlater.text_eq, runningText_append]
  by_cases hsome : tokens = []
  · exact ⟨runningText more, by rw [hsome]; rfl⟩
  · rw [Token.runningText_extendLast gap hsome, String.append_assoc]
    exact ⟨_, rfl⟩

/-- A token keeps the text behind it, but that of the last token grows. -/
theorem exists_break?_eq (h : text.Spells tokens)
    (hlater : later.Spells (Token.extendLast gap tokens ++ more)) {index : Nat}
    (hindex : index < tokens.length) :
    ∃ trailing, text.break? index = some trailing
      ∧ later.break? index
        = some (if index + 1 = tokens.length then trailing ++ gap else trailing) := by
  have hlength : index < (Token.extendLast gap tokens).length := by
    rw [Token.length_extendLast]
    exact hindex
  have htoken : tokens[index]? = some tokens[index] := List.getElem?_eq_getElem hindex
  refine ⟨tokens[index].trailing, h.break?_eq htoken, ?_⟩
  rw [(hlater.lookups_eq index).2, List.getElem?_append_left hlength, Token.getElem?_extendLast,
    htoken]
  by_cases hlast : index + 1 = tokens.length
  · simp only [hlast, if_true, Option.map_some]
  · simp only [hlast, if_false, Option.map_some]

end CorpusText.Spells

/-! ## Corpora -/

namespace Corpus

variable {reader : Reader} {ratio : UInt32} {first second : List Work} {corpus later : Corpus}

/-- A corpus goes on where another stops: what is known of the tokens so far is the same. -/
structure Prolongs (later corpus : Corpus) : Prop where
  /-- Every list has the tokens that it had so far. A missing list has none. -/
  members : ∀ key, ∃ members, Posting.membersOf (later.posting? key) = .ok members
    ∧ Posting.membersOf (corpus.posting? key)
      = .ok (members.filter fun token => token.toNat < corpus.tokenCount)
  works : corpus.works.toList <+: later.works.toList
  tokenStarts : corpus.text.tokenStarts.toList <+: later.text.tokenStarts.toList
  breakStarts : corpus.text.breakStarts.toList <+: later.text.breakStarts.toList
  text : ∃ rest, later.text.text = corpus.text.text ++ rest
  /-- Records are put behind those that there are. -/
  records : corpus.forms.records.toList <+: later.forms.records.toList
  tokenSpans : corpus.forms.tokenSpans.toList <+: later.forms.tokenSpans.toList

/-- Works that are built together with more works behind them are built alone. The one corpus has
the tokens of the other, with the text before the first further word behind the last of them, and
the further words behind that. -/
theorem exists_drafts_of_append (h : ofWorks reader ratio (first ++ second) = .ok later) :
    ∃ base grown corpus, first.foldlM (Draft.addWork reader) .empty = .ok base
      ∧ second.foldlM (Draft.addWork reader) base = .ok grown
      ∧ base.finish ratio = .ok corpus ∧ corpus.OfDraft reader.analyze base
      ∧ grown.finish ratio = .ok later ∧ later.OfDraft reader.analyze grown
      ∧ grown.tokens.toList = Token.extendLast
          (Chunk.join (Chunk.opening (second.flatMap (Work.chunks reader.tokenizer))))
          base.tokens.toList
        ++ Token.ofChunks (second.flatMap (Work.chunks reader.tokenizer)) := by
  obtain ⟨grown, hgrown, hfinish⟩ := ofWorks_eq_ok.mp h
  have hlater := ofDraft_of_finish (sound_of_foldlM_addWork hgrown) hfinish
  have htokens := (worksTaken_of_foldlM_addWork hgrown).tells.tokens_eq
  rw [List.foldlM_append] at hgrown
  obtain ⟨base, hbase, hgrown⟩ := bind_eq_ok.mp hgrown
  have hsound := sound_of_foldlM_addWork hbase
  rw [List.flatMap_append, Token.ofChunks_append,
    ← (worksTaken_of_foldlM_addWork hbase).tells.tokens_eq] at htokens
  obtain ⟨corpus, hcorpus⟩ : ∃ corpus, base.finish ratio = .ok corpus := by
    cases hresult : base.finish ratio with
    | ok corpus => exact ⟨corpus, rfl⟩
    | error failure =>
      -- the text of the first works is no longer than that of all
      obtain ⟨-, htext, -⟩ := Draft.finish_eq_ok hfinish
      have hsize := Draft.exists_textOf_iff.mp ⟨_, htext⟩
      have hshort : (runningText base.tokens.toList).utf8ByteSize < UInt32.size := by
        rw [htokens, runningText_append, String.utf8ByteSize_append] at hsize
        by_cases hsome : base.tokens.toList = []
        · rw [hsome]
          decide
        · rw [Token.runningText_extendLast _ hsome, String.utf8ByteSize_append] at hsize
          omega
      obtain ⟨text, hshort⟩ := Draft.exists_textOf_iff.mpr hshort
      rw [(hsound.finish_eq_error_iff ratio failure).mp hresult] at hshort
      cases hshort
  exact ⟨base, grown, corpus, hbase, hgrown, hcorpus, ofDraft_of_finish hsound hcorpus, hfinish,
    hlater, htokens⟩

/-- What is known of tokens does not change. When works are built together with more works behind
them, they are built alone, and the one corpus goes on where the other stops. -/
theorem prolongs_of_append (h : ofWorks reader ratio (first ++ second) = .ok later) :
    ∃ corpus, ofWorks reader ratio first = .ok corpus ∧ later.Prolongs corpus := by
  obtain ⟨base, grown, corpus, hbase, hgrown, hcorpus, hdraft, hlater, hlaterDraft, htokens⟩ :=
    exists_drafts_of_append h
  refine ⟨corpus, ofWorks_eq_ok.mpr ⟨base, hbase, hcorpus⟩, ?_⟩
  have hsettled : base.Settled grown :=
    (Draft.reaches_foldlM_addWork hgrown).keeps
      (Draft.Settled.step (Draft.endsMarked_of_foldlM_addWork hbase)) (.refl hdraft.sound.size_le)
  obtain ⟨hcount, -, -, hworks, -, hforms, -⟩ := Draft.finish_eq_ok hcorpus
  obtain ⟨-, -, -, hlaterWorks, -, hlaterForms, -⟩ := Draft.finish_eq_ok hlater
  have hspells := hlaterDraft.spells
  rw [htokens] at hspells
  refine ⟨?_, ?_, hdraft.spells.tokenStarts_prefix hspells,
    hdraft.spells.breakStarts_prefix hspells, hdraft.spells.exists_text_append hspells, ?_, ?_⟩
  · intro key
    refine ⟨_, hlaterDraft.membersOf_eq key, ?_⟩
    rw [hdraft.membersOf_eq key, hcount,
      hsettled.filter_tokensOf hdraft.sound.ascends hlaterDraft.sound.ascends key]
  · rw [hworks, hlaterWorks]
    exact Draft.works_prefix_of_foldlM_addWork hgrown
  · rw [hforms, hlaterForms]
    exact hsettled.records
  · rw [hforms, hlaterForms]
    exact hsettled.tokenSpans

/-- A work of the same author goes on where the four rows stop. It repeats their word, and starts
with a bracket. The list of the word is that of the first corpus and the new token, and the third
token is still the last one of the first work. -/
theorem prolongs_of_append_civil : ∃ corpus later,
    ofWorks gallicReader 32 [gallicRows] = .ok corpus
      ∧ ofWorks gallicReader 32 ([gallicRows] ++ [civilRow]) = .ok later
      ∧ later.Prolongs corpus
      ∧ corpus.tokenCount = 3 ∧ later.tokenCount = 4
      ∧ Posting.membersOf (corpus.posting? (.ofWord "gallia")) = .ok [0, 1, 2]
      ∧ Posting.membersOf (later.posting? (.ofWord "gallia")) = .ok [0, 1, 2, 3]
      ∧ corpus.place? 2 = some ⟨0, gallicSpan, ⟨"2.1", 2, 3⟩, 0⟩
      ∧ later.place? 2 = some ⟨0, gallicSpan, ⟨"2.1", 2, 3⟩, 0⟩ := by
  have hfinish : (gallicNoted.finish 32).map (fun corpus => (corpus.tokenCount,
      Posting.membersOf (corpus.posting? (.ofWord "gallia")), corpus.place? 2))
        = .ok (3, .ok [0, 1, 2], some ⟨0, gallicSpan, ⟨"2.1", 2, 3⟩, 0⟩) := by
    decide +kernel
  have hlaterFinish : (civilNoted.finish 32).map (fun corpus => (corpus.tokenCount,
      Posting.membersOf (corpus.posting? (.ofWord "gallia")), corpus.place? 2))
        = .ok (4, .ok [0, 1, 2, 3], some ⟨0, gallicSpan, ⟨"2.1", 2, 3⟩, 0⟩) := by
    decide +kernel
  obtain ⟨corpus, hcorpus, hdata⟩ := map_eq_ok.mp hfinish
  obtain ⟨hcount, hdata⟩ := Prod.mk.inj hdata
  obtain ⟨hmembers, hplace⟩ := Prod.mk.inj hdata
  obtain ⟨later, hlater, hdata⟩ := map_eq_ok.mp hlaterFinish
  obtain ⟨hlaterCount, hdata⟩ := Prod.mk.inj hdata
  obtain ⟨hlaterMembers, hlaterPlace⟩ := Prod.mk.inj hdata
  have hbuilt := ofWorks_gallicRows hcorpus
  have happend : ofWorks gallicReader 32 ([gallicRows] ++ [civilRow]) = .ok later :=
    ofWorks_civilRow hlater
  obtain ⟨same, hsame, hprolongs⟩ := prolongs_of_append happend
  rw [hbuilt] at hsame
  cases hsame
  exact ⟨corpus, later, hbuilt, happend, hprolongs, hcount, hlaterCount, hmembers, hlaterMembers,
    hplace, hlaterPlace⟩

/-! ### The text before the first word of a work -/

/-- The text behind a token stays when more works are taken, but behind the last token comes the
text before the first word of those works. -/
theorem exists_breaks_of_append (hsome : first ≠ [])
    (h : ofWorks reader ratio (first ++ second) = .ok later) :
    ∃ corpus, ofWorks reader ratio first = .ok corpus ∧ 0 < corpus.tokenCount
      ∧ ∀ token < corpus.tokenCount, ∃ text, corpus.breakText? token = some text
        ∧ later.breakText? token = some (if token + 1 = corpus.tokenCount
          then text ++ Chunk.join (Chunk.opening
            (second.flatMap fun work => work.rows.flatMap reader.tokenizer.chunks))
          else text) := by
  obtain ⟨base, grown, corpus, hbase, -, hcorpus, hdraft, -, hlater, htokens⟩ :=
    exists_drafts_of_append h
  have hspells := hlater.spells
  rw [htokens, (alike_flatMap_chunks reader.tokenizer second).opening] at hspells
  have hpos := (worksTaken_of_foldlM_addWork hbase).size_pos hsome
  rw [← hdraft.tokenCount_eq] at hpos
  refine ⟨corpus, ofWorks_eq_ok.mpr ⟨base, hbase, hcorpus⟩, hpos, ?_⟩
  intro token htoken
  rw [hdraft.tokenCount_eq] at htoken ⊢
  exact hdraft.spells.exists_break?_eq hspells htoken

/-- The text behind a token does not change when one more work is taken, but for the last token
before the work: what stands before the first word of the work is put behind that token. So the text
behind all tokens stays exactly if the work starts with a word. -/
theorem breaks_of_next_work {work : Work} (hsome : first ≠ [])
    (h : ofWorks reader ratio (first ++ [work]) = .ok later) :
    let opening := Chunk.join (Chunk.opening (work.rows.flatMap reader.tokenizer.chunks))
    ∃ corpus, ofWorks reader ratio first = .ok corpus
      ∧ (∀ token, token + 1 < corpus.tokenCount →
        later.breakText? token = corpus.breakText? token)
      ∧ (∃ last text, last + 1 = corpus.tokenCount ∧ corpus.breakText? last = some text
        ∧ later.breakText? last = some (text ++ opening))
      ∧ ((∀ token < corpus.tokenCount, later.breakText? token = corpus.breakText? token)
        ↔ opening = "") := by
  intro opening
  obtain ⟨corpus, hcorpus, hpos, hbreaks⟩ := exists_breaks_of_append hsome h
  rw [List.flatMap_singleton] at hbreaks
  have hstays : ∀ token, token + 1 < corpus.tokenCount →
      later.breakText? token = corpus.breakText? token := by
    intro token htoken
    obtain ⟨text, htext, hlater⟩ := hbreaks token (by omega)
    rw [hlater, htext, if_neg (by omega)]
  obtain ⟨last, hlast⟩ : ∃ last, last + 1 = corpus.tokenCount :=
    ⟨corpus.tokenCount - 1, by omega⟩
  obtain ⟨text, htext, hgrows⟩ := hbreaks last (by omega)
  rw [if_pos hlast] at hgrows
  refine ⟨corpus, hcorpus, hstays, ⟨last, text, hlast, htext, hgrows⟩, ?_, ?_⟩
  · intro hall
    have hsame := hall last (by omega)
    rw [hgrows, htext] at hsame
    exact String.append_eq_left_iff.mp (Option.some.inj hsame)
  · intro hempty token htoken
    rcases Nat.lt_or_eq_of_le (Nat.succ_le_of_lt htoken) with hlt | heq
    · exact hstays token hlt
    · obtain rfl : token = last := by omega
      rw [hgrows, htext]
      show some (text ++ opening) = some text
      rw [hempty, String.append_empty]

/-- The bracket at the start of the second work is put behind the full stop of the first. -/
theorem breaks_of_next_work_civil : ∃ corpus later last text,
    ofWorks gallicReader 32 [gallicRows] = .ok corpus
      ∧ ofWorks gallicReader 32 ([gallicRows] ++ [civilRow]) = .ok later
      ∧ last + 1 = corpus.tokenCount ∧ corpus.breakText? last = some text
      ∧ later.breakText? last = some (text ++ "(") := by
  obtain ⟨later, hlater, -⟩ := exists_ofWorks_civilRow
  have happend : ofWorks gallicReader 32 ([gallicRows] ++ [civilRow]) = .ok later := hlater
  obtain ⟨corpus, hcorpus, -, ⟨last, text, hlast, htext, hgrows⟩, -⟩ :=
    breaks_of_next_work (List.cons_ne_nil gallicRows []) happend
  have hopening : Chunk.join (Chunk.opening
      (civilRow.rows.flatMap gallicReader.tokenizer.chunks)) = "(" := by
    decide +kernel
  rw [hopening] at hgrows
  exact ⟨corpus, later, last, text, hcorpus, hlater, hlast, htext, hgrows⟩

/-- The text behind the last token of a corpus is not the same in every corpus that goes on with
it. -/
theorem break_of_last_token_grows : ∃ corpus later,
    ofWorks gallicReader 32 [gallicRows] = .ok corpus
      ∧ ofWorks gallicReader 32 ([gallicRows] ++ [civilRow]) = .ok later
      ∧ 2 < corpus.tokenCount ∧ corpus.breakText? 2 = some "."
      ∧ later.breakText? 2 = some ".(" := by
  have hfinish : (gallicNoted.finish 32).map
      (fun corpus => (corpus.tokenCount, corpus.breakText? 2)) = .ok (3, some ".") := by
    decide +kernel
  obtain ⟨corpus, hcorpus, hdata⟩ := map_eq_ok.mp hfinish
  obtain ⟨hcount, hbreak⟩ := Prod.mk.inj hdata
  obtain ⟨later, hlater, -, hgrown⟩ := exists_ofWorks_civilRow
  refine ⟨corpus, later, ofWorks_gallicRows hcorpus, hlater, ?_, hbreak, hgrown⟩
  rw [hcount]
  decide

end Corpus

end Concordance
