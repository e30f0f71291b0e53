import Concordance.Grammar.GallicWar
import Concordance.Proofs.Corpus.Index
import Concordance.Proofs.Corpus.Keys
import Concordance.Proofs.Corpus.Steps
import Concordance.Proofs.Corpus.Text

/-!
# The lists of a corpus

The lists of a corpus tell exactly what the analyses of its words say: a token is in the list of
its search key, of the headwords of its analyses, and of each of their grammatical values, and in no
other list but that of the hard boundaries (`Corpus.lists_tell_analyses`).

- `Draft.Sound`: the index and the form table of a draft are right about its tokens. Every step of a
  build keeps this (`Draft.Sound.step`).
- `Corpus.Lists`: a token is a member of the list of a key.
- `Corpus.OfDraft`: a corpus comes from a sound draft. Every corpus that is built does.
-/

namespace Concordance

/-! ## Drafts -/

namespace Draft

/-- The index and the form table of a draft are right about its tokens. -/
structure Sound (analyze : String → List Analysis) (draft : Draft) : Prop where
  /-- Every token has a 32-bit number. -/
  size_le : draft.tokens.size ≤ maxTokens
  /-- The entries of forms say what their analyses say. -/
  forms : FormTable.Sound analyze draft.forms
  /-- The lists ascend and have only tokens of the draft. -/
  ascends : draft.index.Ascends draft.tokens.size
  /-- A token is in the lists of the keys of its form, and in no others but that of the hard
  boundaries. -/
  mem_tokensOf : ∀ key, key ≠ .hardBreak → ∀ token : UInt32,
    token ∈ draft.index.tokensOf key ↔ ∃ found, draft.tokens[token.toNat]? = some found
      ∧ key ∈ keysOfForm analyze (Fold.searchKey found.spelling)

variable {analyze : String → List Analysis} {draft grown : Draft}

namespace Sound

theorem empty : Sound analyze empty where
  size_le := Nat.zero_le _
  forms := FormTable.sound_empty
  ascends := .empty
  mem_tokensOf key _ token := by simp [Draft.empty]

/-- A word gets the next number, under the keys of its form. -/
theorem addWord (h : draft.Sound analyze) {spelling : String}
    (hword : draft.addWord analyze spelling = .ok grown) : grown.Sound analyze := by
  obtain ⟨hroom, forms, entry, hadd, rfl⟩ := addWord_eq_ok hword
  obtain ⟨hforms, hentry⟩ := h.forms.add hadd
  have hnumber : (UInt32.ofNat draft.tokens.size).toNat = draft.tokens.size :=
    UInt32.toNat_ofNat_of_lt' (Nat.lt_trans hroom (by decide))
  refine ⟨?_, hforms, ?_, ?_⟩
  · rw [Array.size_push]
    exact hroom
  · have hascends := h.ascends.addWord (Nat.le_of_eq hnumber.symm) (Fold.searchKey spelling)
      entry.headwords ((forms.recordsAt? entry.span).getD [])
    rw [hnumber] at hascends
    rw [Array.size_push]
    exact hascends
  · intro key hkey token
    rw [DraftIndex.mem_tokensOf_addWord, h.mem_tokensOf key hkey, mem_keysOf hentry,
      Array.getElem?_push]
    by_cases hnew : token.toNat = draft.tokens.size
    · -- no token had the new number before
      have heq : token = UInt32.ofNat draft.tokens.size := by
        rw [← UInt32.toNat_inj, hnumber, hnew]
      rw [if_pos hnew, hnew, Array.getElem?_eq_none (Nat.le_refl _)]
      simp [heq]
    · have hne : token ≠ UInt32.ofNat draft.tokens.size := by
        rintro rfl
        exact hnew hnumber
      rw [if_neg hnew]
      simp [hne]

/-- Text behind the last token changes no spelling. -/
theorem appendBreak (h : draft.Sound analyze) (text : String) :
    (draft.appendBreak text).Sound analyze := by
  unfold Draft.appendBreak
  refine ⟨?_, h.forms, ?_, ?_⟩
  · rw [Array.size_modify]
    exact h.size_le
  · rw [Array.size_modify]
    exact h.ascends
  · intro key hkey token
    rw [h.mem_tokensOf key hkey, Array.getElem?_modify]
    split
    case isTrue =>
      -- the last token has another break, but the same spelling
      cases draft.tokens[token.toNat]? with
      | none => simp
      | some found => simp
    case isFalse => rfl

/-- A hard boundary has a list of its own. -/
theorem markHardBreak (h : draft.Sound analyze) : draft.markHardBreak.Sound analyze := by
  unfold Draft.markHardBreak
  split
  case isTrue => exact h
  case isFalse hsome =>
    have hsize := h.size_le
    have hlast : (UInt32.ofNat (draft.tokens.size - 1)).toNat = draft.tokens.size - 1 := by
      refine UInt32.toNat_ofNat_of_lt' ?_
      unfold maxTokens at hsize
      omega
    refine ⟨h.size_le, h.forms, ?_, ?_⟩
    -- the last token may be in the list already, but no greater one is
    · have hascends := h.ascends.addHardBreak (show draft.tokens.size
          ≤ (UInt32.ofNat (draft.tokens.size - 1)).toNat + 1 by omega)
      rw [hlast, Nat.sub_add_cancel (Nat.pos_of_ne_zero hsome)] at hascends
      exact hascends
    · intro key hkey token
      rw [DraftIndex.mem_tokensOf_addHardBreak, h.mem_tokensOf key hkey]
      simp only [hkey, false_and, or_false]

/-- Every step of a build keeps a draft sound. -/
theorem step (hstep : Step analyze draft grown) (h : draft.Sound analyze) :
    grown.Sound analyze := by
  cases hstep with
  | reading hread =>
    cases hread with
    | word hword => exact h.addWord hword
    | text text => exact h.appendBreak text
    | boundary => exact h.markHardBreak
  | spans works authors => exact ⟨h.size_le, h.forms, h.ascends, h.mem_tokensOf⟩

end Sound

end Draft

/-! ## Corpora -/

namespace Corpus

/-- A token is a member of the list of a key, where a missing list has no members. -/
def Lists (corpus : Corpus) (key : IndexKey) (token : Nat) : Prop :=
  ∃ members, Posting.membersOf (corpus.posting? key) = .ok members
    ∧ ∃ member ∈ members, member.toNat = token

/-- A token is in the list of a value of a category exactly if the field of the category has the
value in some analysis. -/
def TellsValues {α : Type} [Category α] (corpus : Corpus) (token : Nat) (analyses : List Analysis)
    (dimension : Dimension) (field : Analysis → Option (Reading α)) : Prop :=
  ∀ value : α, corpus.Lists ⟨dimension, Category.key value⟩ token
    ↔ ∃ analysis ∈ analyses, value ∈ Analysis.valuesOf (field analysis)

/-- A corpus comes from a sound draft. -/
structure OfDraft (analyze : String → List Analysis) (corpus : Corpus) (draft : Draft) : Prop where
  /-- The draft is sound. -/
  sound : draft.Sound analyze
  /-- The corpus has the tokens of the draft. -/
  tokenCount_eq : corpus.tokenCount = draft.tokens.size
  /-- The text is that of the tokens. -/
  spells : corpus.text.Spells draft.tokens.toList
  /-- A list holds the tokens of its key. Apart from that of the hard boundaries there are lists
  only for keys with tokens. -/
  holds : ∀ key,
    (∃ posting, corpus.posting? key = some posting ∧ posting.Holds (draft.index.tokensOf key)
        ∧ (key ≠ .hardBreak → draft.index.tokensOf key ≠ []))
      ∨ (corpus.posting? key = none ∧ draft.index.tokensOf key = [])

/-- The draft of works is sound. -/
theorem sound_of_foldlM_addWork {reader : Reader} {works : List Work} {draft : Draft}
    (h : works.foldlM (Draft.addWork reader) .empty = .ok draft) : draft.Sound reader.analyze :=
  (Draft.reaches_foldlM_addWork h).keeps Draft.Sound.step Draft.Sound.empty

/-- The corpus of a sound draft comes from it. -/
theorem ofDraft_of_finish {analyze : String → List Analysis} {draft : Draft} {ratio : UInt32}
    {corpus : Corpus} (hsound : draft.Sound analyze) (h : draft.finish ratio = .ok corpus) :
    corpus.OfDraft analyze draft := by
  obtain ⟨hcount, htext, hindex, -⟩ := Draft.finish_eq_ok h
  exact ⟨hsound, hcount, Draft.spells_textOf htext, Draft.packIndex_holds hsound.ascends hindex⟩

/-- Every corpus that is built comes from a sound draft. -/
theorem exists_ofDraft {reader : Reader} {ratio : UInt32} {works : List Work} {corpus : Corpus}
    (h : ofWorks reader ratio works = .ok corpus) :
    ∃ draft, corpus.OfDraft reader.analyze draft := by
  unfold ofWorks at h
  obtain ⟨draft, hdraft, h⟩ := bind_eq_ok.mp h
  exact ⟨draft, ofDraft_of_finish (sound_of_foldlM_addWork hdraft) h⟩

namespace OfDraft

variable {analyze : String → List Analysis} {corpus : Corpus} {draft : Draft}

/-- The members of a list are the tokens of its key in the draft. -/
theorem membersOf_eq (h : corpus.OfDraft analyze draft) (key : IndexKey) :
    Posting.membersOf (corpus.posting? key) = .ok (draft.index.tokensOf key) := by
  rcases h.holds key with ⟨posting, hposting, hholds, _⟩ | ⟨hnone, hnil⟩
  · rw [hposting]
    exact hholds.members_eq
  · rw [hnone, hnil]
    rfl

/-- The list of a key, or the empty list for a missing one, holds the tokens of the key. -/
theorem getD_holds (h : corpus.OfDraft analyze draft) (key : IndexKey) :
    ((corpus.posting? key).getD .empty).Holds (draft.index.tokensOf key) := by
  rcases h.holds key with ⟨posting, hposting, hholds, _⟩ | ⟨hnone, hnil⟩
  · rw [hposting, Option.getD_some]
    exact hholds
  · rw [hnone, hnil, Option.getD_none]
    exact Posting.empty_holds

/-- Apart from the list of the hard boundaries, lists with members are present and others absent. -/
theorem isSome_iff (h : corpus.OfDraft analyze draft) {key : IndexKey} (hkey : key ≠ .hardBreak) :
    (corpus.posting? key).isSome ↔ draft.index.tokensOf key ≠ [] := by
  rcases h.holds key with ⟨posting, hposting, _, hne⟩ | ⟨hnone, hnil⟩
  · rw [hposting]
    exact ⟨fun _ => hne hkey, fun _ => rfl⟩
  · rw [hnone, hnil]
    simp

/-- A token is in the lists of the keys of its form, and in no others but that of the hard
boundaries. -/
theorem lists_iff (h : corpus.OfDraft analyze draft) {key : IndexKey} (hkey : key ≠ .hardBreak)
    {index : Nat} {token : Token} (htoken : draft.tokens[index]? = some token) :
    corpus.Lists key index ↔ key ∈ keysOfForm analyze (Fold.searchKey token.spelling) := by
  unfold Lists
  simp only [h.membersOf_eq key, Except.ok.injEq, exists_eq_left', h.sound.mem_tokensOf key hkey]
  constructor
  · rintro ⟨member, ⟨found, hfound, hmem⟩, rfl⟩
    rw [htoken] at hfound
    cases hfound
    exact hmem
  · intro hmem
    obtain ⟨hlt, _⟩ := Array.getElem?_eq_some_iff.mp htoken
    -- 32 bits say every token, so there is a member for it
    have hsize := h.sound.size_le
    have hnumber : (UInt32.ofNat index).toNat = index := by
      refine UInt32.toNat_ofNat_of_lt' ?_
      unfold Draft.maxTokens at hsize
      omega
    refine ⟨UInt32.ofNat index, ⟨token, ?_, hmem⟩, hnumber⟩
    rw [hnumber]
    exact htoken

/-- Every token of the corpus is one of the draft, and is looked up as it is spelled. -/
theorem exists_token (h : corpus.OfDraft analyze draft) {index : Nat}
    (hindex : index < corpus.tokenCount) :
    ∃ token, draft.tokens[index]? = some token ∧ corpus.tokenText? index = some token.spelling := by
  rw [h.tokenCount_eq] at hindex
  have htoken : draft.tokens[index]? = some draft.tokens[index] :=
    Array.getElem?_eq_getElem hindex
  refine ⟨_, htoken, h.spells.token?_eq ?_⟩
  rw [Array.getElem?_toList]
  exact htoken

end OfDraft

/-! ### A corpus of one word -/

/-- A reader that knows the opening of the Gallic War. -/
def gallicReader : Reader := ⟨BreakSet.default.tokenizer, Lexicon.gallicWar.lookup⟩

/-- The first word of the Gallic War. -/
def gallicWork : Work := Work.numbered "gallic" "caesar" ["Gallia"]

/-- The analyses that the lexicon has for the word. -/
def gallicAnalyses : List Analysis := [{
  headword := "Gallia"
  case := some (.many [.nominative, .ablative])
  number := some (.one .singular)
  gender := some (.one .feminine) }]

/-- What the form table knows about the word. -/
def gallicEntry : FormEntry := ⟨["Gallia"], ⟨1, 1⟩⟩

/-- The form table with the word. -/
def gallicForms : FormTable :=
  ⟨#[0, 0x04220001], #[⟨1, 1⟩], Std.HashMap.insert ∅ "gallia" gallicEntry⟩

/-- The draft with the word. -/
def gallicDraft : Draft where
  tokens := #[⟨"Gallia", ""⟩]
  forms := gallicForms
  index := DraftIndex.empty.addWord "gallia" ["Gallia"] [0x04220001] 0
  works := #[]
  authors := ∅

/-- The word is taken as the first token. -/
theorem addWord_gallicDraft :
    Draft.empty.addWord gallicReader.analyze "Gallia" = .ok gallicDraft := by
  have hkey : Fold.searchKey "Gallia" = "gallia" := by decide +kernel
  have hforms : FormTable.empty.add gallicReader.analyze "gallia"
      = .ok (gallicForms, gallicEntry) := by
    have hnew : FormTable.empty.entries["gallia"]? = none := Std.HashMap.getElem?_empty
    have hanalyses : gallicReader.analyze "gallia" = gallicAnalyses := by decide +kernel
    rw [FormTable.add_eq, hnew, hanalyses]
    cbv
  unfold Draft.addWord
  rw [hkey]
  exact bind_eq_ok.mpr ⟨_, hforms, rfl⟩

/-- The work of one word is built, and its word is looked up as it is spelled. -/
theorem exists_ofWorks_gallicWork : ∃ corpus, ofWorks gallicReader 32 [gallicWork] = .ok corpus
    ∧ corpus.tokenCount = 1 ∧ corpus.tokenText? 0 = some "Gallia" := by
  have hrow : Draft.empty.addRow gallicReader "gallic" 0 none "Gallia" ["1"]
      = .ok (gallicDraft, ⟨"1", 0, 1⟩) := by
    have hchunks : gallicReader.tokenizer.chunks "Gallia" = [⟨"Gallia", true⟩] := by decide +kernel
    have hlabel : SectionId.label ["1"] = "1" := by decide +kernel
    unfold Draft.addRow
    rw [hchunks, hlabel]
    exact bind_eq_ok.mpr ⟨none, rfl, bind_eq_ok.mpr
      ⟨gallicDraft, bind_eq_ok.mpr ⟨gallicDraft, addWord_gallicDraft, rfl⟩, rfl⟩⟩
  have hrows : Draft.empty.addRows gallicReader gallicWork.id 0 none
      (gallicWork.rows.zip gallicWork.rowIds) = .ok (gallicDraft, [⟨"1", 0, 1⟩]) := by
    have hzip : gallicWork.rows.zip gallicWork.rowIds = [("Gallia", ["1"])] := by decide +kernel
    rw [hzip]
    exact bind_eq_ok.mpr ⟨_, hrow, rfl⟩
  obtain ⟨draft, hdraft, hfinish⟩ : ∃ draft, Draft.empty.addWork gallicReader gallicWork = .ok draft
      ∧ (draft.finish 32).map (fun corpus => (corpus.tokenCount, corpus.tokenText? 0))
        = .ok (1, some "Gallia") := by
    unfold Draft.addWork
    simp only [guard_eq_ok]
    refine ⟨_, ⟨by decide +kernel, by decide +kernel, bind_eq_ok.mpr ⟨_, rfl, bind_eq_ok.mpr
      ⟨_, hrows, guard_eq_ok.mpr ⟨by decide, rfl⟩⟩⟩⟩, ?_⟩
    decide +kernel
  obtain ⟨corpus, hcorpus, hdata⟩ := map_eq_ok.mp hfinish
  refine ⟨corpus, ?_, congrArg Prod.fst hdata, congrArg Prod.snd hdata⟩
  exact bind_eq_ok.mpr ⟨draft, bind_eq_ok.mpr ⟨draft, hdraft, rfl⟩, hcorpus⟩

/-! ### All corpora -/

/-- In every corpus that is built, a token is in exactly the lists that its word and the analyses of
its word name: the list of its search key, the lists of the headwords of the analyses, and the lists
of the values that some analysis gives for a category. Every list reads back as ascending tokens of
the corpus, and apart from that of the hard boundaries there is a list exactly if it has members. -/
theorem lists_tell_analyses {reader : Reader} {ratio : UInt32} {works : List Work} {corpus : Corpus}
    (h : ofWorks reader ratio works = .ok corpus) :
    (∀ index < corpus.tokenCount, ∃ spelling, corpus.tokenText? index = some spelling ∧
      let form := Fold.searchKey spelling
      let analyses := reader.analyze form
      (∀ word, corpus.Lists ⟨.word, word⟩ index ↔ word = form)
        ∧ (∀ headword, corpus.Lists ⟨.headword, headword⟩ index
          ↔ ∃ analysis ∈ analyses, analysis.headword = headword)
        ∧ corpus.TellsValues index analyses .case (·.case)
        ∧ corpus.TellsValues index analyses .number (·.number)
        ∧ corpus.TellsValues index analyses .gender (·.gender)
        ∧ corpus.TellsValues index analyses .tense (·.tense)
        ∧ corpus.TellsValues index analyses .person (·.person)
        ∧ corpus.TellsValues index analyses .mood (·.mood)
        ∧ corpus.TellsValues index analyses .voice (·.voice))
    ∧ ∀ key, ∃ members, Posting.membersOf (corpus.posting? key) = .ok members
      ∧ members.Pairwise (· < ·) ∧ (∀ member ∈ members, member.toNat < corpus.tokenCount)
      ∧ (key ≠ .hardBreak → ((corpus.posting? key).isSome ↔ members ≠ [])) := by
  obtain ⟨draft, hdraft⟩ := exists_ofDraft h
  constructor
  · intro index hindex
    obtain ⟨token, htoken, htext⟩ := hdraft.exists_token hindex
    -- a list of any dimension but the breaks is that of a key of the form
    have hlists : ∀ dimension value, dimension ≠ .breaks →
        (corpus.Lists ⟨dimension, value⟩ index
          ↔ ⟨dimension, value⟩ ∈ keysOfForm reader.analyze (Fold.searchKey token.spelling)) := by
      intro dimension value hdimension
      refine hdraft.lists_iff ?_ htoken
      intro heq
      exact hdimension (congrArg IndexKey.dimension heq)
    refine ⟨token.spelling, htext, ?_, ?_, ?_, ?_, ?_, ?_, ?_, ?_, ?_⟩
    · intro word
      rw [hlists _ _ (by decide), word_mem_keysOfForm]
    · intro headword
      rw [hlists _ _ (by decide), headword_mem_keysOfForm]
    all_goals
      intro value
      rw [hlists _ _ (by decide), mem_keysOfForm (by decide) (by decide)]
      simp [Analysis.valueKeys, IndexKey.key_mem_ofValues, IndexKey.not_mem_ofValues]
  · intro key
    obtain ⟨hasc, hlt⟩ := hdraft.sound.ascends.tokensOf key
    refine ⟨_, hdraft.membersOf_eq key, hasc, ?_, hdraft.isSome_iff⟩
    rw [hdraft.tokenCount_eq]
    exact hlt

/-- The first word of the Gallic War is in the list of a case that its analysis names, and not in
that of another. -/
theorem lists_tell_analyses_gallic : ∃ corpus, ofWorks gallicReader 32 [gallicWork] = .ok corpus
    ∧ corpus.tokenText? 0 = some "Gallia" ∧ corpus.Lists ⟨.headword, "Gallia"⟩ 0
    ∧ corpus.Lists ⟨.case, "ablative"⟩ 0 ∧ ¬corpus.Lists ⟨.case, "dative"⟩ 0 := by
  obtain ⟨corpus, hcorpus, hcount, htext⟩ := exists_ofWorks_gallicWork
  obtain ⟨spelling, hspelling, hword, hheadword, hcase, _⟩ :=
    (lists_tell_analyses hcorpus).1 0 (by omega)
  rw [htext] at hspelling
  cases hspelling
  have hkey : Fold.searchKey "Gallia" = "gallia" := by decide +kernel
  have hanalyses : gallicReader.analyze (Fold.searchKey "Gallia") = gallicAnalyses := by
    rw [hkey]
    decide +kernel
  rw [hanalyses] at hheadword hcase
  refine ⟨corpus, hcorpus, htext, ?_, ?_, ?_⟩
  · exact (hheadword "Gallia").mpr (by decide)
  · exact (hcase .ablative).mpr (by decide)
  · exact mt (hcase .dative).mp (by decide)

end Corpus

end Concordance
