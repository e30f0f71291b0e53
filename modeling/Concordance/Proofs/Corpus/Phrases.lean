import Concordance.Corpus.Query
import Concordance.Proofs.Corpus.Postings
import Concordance.Proofs.Posting.Pairings

/-!
# Phrases

A phrase is a query of words that follow each other, each at its own position. Its first word is at
position zero, so the result stays in the frame of the text: it lists the tokens at which the phrase
begins. These are the ones that a scan of the text finds (`Corpus.phrase_agrees_with_scan`).

Each further word of the phrase keeps the tokens that have it at its distance
(`Corpus.OfDraft.refine_word`), so the tokens that are left behind some words have these words
(`Corpus.OfDraft.refineAll_phrase`).
-/

namespace Concordance.Corpus

/-- The further terms of a phrase: words at positions from `position` on, all of which a token has to
have. -/
def phraseFrom (position : Nat) : List String → List (Link × Term)
  | [] => []
  | word :: later => (.meet, ⟨.ofWord word, UInt32.ofNat position⟩) :: phraseFrom (position + 1) later

/-- The search key of a token. -/
def tokenKey? (corpus : Corpus) (token : Nat) : Option String :=
  (corpus.tokenText? token).map Fold.searchKey

/-- The tokens from an index on have the search keys `words`, one after the other. -/
def ReadsFrom (corpus : Corpus) (token : Nat) (words : List String) : Prop :=
  ∀ index < words.length, corpus.tokenKey? (token + index) = words[index]?

instance (corpus : Corpus) (token : Nat) (words : List String) :
    Decidable (corpus.ReadsFrom token words) :=
  inferInstanceAs (Decidable (∀ index < words.length, _))

/-- The tokens at which words follow each other, found by looking at all tokens. -/
def scan (corpus : Corpus) (words : List String) : List Nat :=
  (List.range corpus.tokenCount).filter fun token =>
    token + words.length ≤ corpus.tokenCount ∧ corpus.ReadsFrom token words

/-- A phrase is read word by word. -/
theorem readsFrom_cons (corpus : Corpus) (token : Nat) (word : String) (later : List String) :
    corpus.ReadsFrom token (word :: later)
      ↔ corpus.tokenKey? token = some word ∧ corpus.ReadsFrom (token + 1) later := by
  unfold ReadsFrom
  rw [List.length_cons, Nat.forall_lt_succ_left]
  simp only [Nat.add_zero, List.getElem?_cons_zero, List.getElem?_cons_succ, Nat.add_assoc,
    Nat.add_comm 1]

/-- Keeping the tokens with a word and then those with the later words keeps those with all. -/
theorem filter_readsFrom_cons (corpus : Corpus) (members : List UInt32) (position : Nat)
    (word : String) (later : List String) :
    (members.filter fun member => corpus.tokenKey? (member.toNat + position) = some word).filter
        (fun member => corpus.ReadsFrom (member.toNat + (position + 1)) later)
      = members.filter fun member => corpus.ReadsFrom (member.toNat + position) (word :: later) := by
  rw [List.filter_filter]
  refine List.filter_congr fun member _ => ?_
  rw [← Bool.decide_and]
  refine decide_eq_decide.mpr ?_
  rw [readsFrom_cons, and_comm, Nat.add_assoc]

namespace OfDraft

variable {analyze : String → List Analysis} {corpus : Corpus} {draft : Draft}

/-- The tokens of the corpus have the search keys of those of the draft. -/
theorem tokenKey?_eq (h : corpus.OfDraft analyze draft) (index : Nat) :
    corpus.tokenKey? index
      = draft.tokens[index]?.map fun token => Fold.searchKey token.spelling := by
  unfold tokenKey?
  by_cases hindex : index < corpus.tokenCount
  · obtain ⟨token, htoken, htext⟩ := h.exists_token hindex
    rw [htoken, htext]
    rfl
  · have hnone : corpus.tokenText? index = none := by
      have hsize := h.spells.size_tokenStarts
      rw [Array.length_toList, ← h.tokenCount_eq] at hsize
      rw [tokenText?, CorpusText.token?, Array.getElem?_eq_none (by omega)]
      rfl
    rw [h.tokenCount_eq] at hindex
    rw [hnone, Array.getElem?_eq_none (Nat.le_of_not_lt hindex)]
    rfl

/-- The list of a word has the tokens with its search key. -/
theorem mem_tokensOf_word (h : corpus.OfDraft analyze draft) (word : String) (token : UInt32) :
    token ∈ draft.index.tokensOf (.ofWord word) ↔ corpus.tokenKey? token.toNat = some word := by
  rw [h.sound.mem_tokensOf _ (by simp [IndexKey.ofWord, IndexKey.hardBreak]), h.tokenKey?_eq,
    Option.map_eq_some_iff]
  refine exists_congr fun found => and_congr_right fun _ => ?_
  rw [IndexKey.ofWord, word_mem_keysOfForm, eq_comm]

/-- Only tokens of the corpus have search keys. -/
theorem lt_of_tokenKey?_eq_some (h : corpus.OfDraft analyze draft) {index : Nat} {word : String}
    (hkey : corpus.tokenKey? index = some word) : index < corpus.tokenCount := by
  rw [h.tokenKey?_eq, Option.map_eq_some_iff] at hkey
  obtain ⟨token, htoken, -⟩ := hkey
  rw [h.tokenCount_eq]
  exact (Array.getElem?_eq_some_iff.mp htoken).1

/-- The number of tokens fits 32 bits. -/
theorem tokenCount_lt (h : corpus.OfDraft analyze draft) : corpus.tokenCount < UInt32.size := by
  have hsize := h.sound.size_le
  rw [h.tokenCount_eq]
  exact Nat.lt_of_le_of_lt hsize (by decide)

/-- The tokens with a word at a distance are those that meet the list of the word there. -/
theorem meeting_tokensOf_word (h : corpus.OfDraft analyze draft) (members : List UInt32)
    (word : String) (position : Nat) :
    Anchored.meeting (-(position : Int)) members (draft.index.tokensOf (.ofWord word))
      = members.filter fun member => corpus.tokenKey? (member.toNat + position) = some word := by
  refine List.filter_congr fun member _ => decide_eq_decide.mpr ?_
  constructor
  · rintro ⟨other, hother, heq⟩
    rw [h.mem_tokensOf_word] at hother
    rw [show member.toNat + position = other.toNat by omega]
    exact hother
  · intro hkey
    -- a token with a search key has a 32-bit number
    have hlt := Nat.lt_trans (h.lt_of_tokenKey?_eq_some hkey) h.tokenCount_lt
    have hnumber : (UInt32.ofNat (member.toNat + position)).toNat = member.toNat + position :=
      UInt32.toNat_ofNat_of_lt' hlt
    refine ⟨UInt32.ofNat (member.toNat + position), ?_, by omega⟩
    rw [h.mem_tokensOf_word, hnumber]
    exact hkey

/-- A word of a phrase keeps the tokens that have it at its distance. -/
theorem refine_word (h : corpus.OfDraft analyze draft) {result : Anchored} {members : List UInt32}
    (hposition : result.position = 0) (hholds : result.posting.Holds members) (word : String)
    (position : Nat) (hfits : position < UInt32.size) :
    ∃ next, corpus.refine result .meet ⟨.ofWord word, UInt32.ofNat position⟩ = .ok next
      ∧ next.position = 0
      ∧ next.posting.Holds (members.filter fun member =>
          corpus.tokenKey? (member.toNat + position) = some word) := by
  have hoffset : result.offset (corpus.anchored ⟨.ofWord word, UInt32.ofNat position⟩)
      = -(position : Int) := by
    have hnumber : (UInt32.ofNat position).toNat = position := UInt32.toNat_ofNat_of_lt' hfits
    show (result.position.toNat : Int) - ((UInt32.ofNat position).toNat : Int) = _
    rw [hposition, hnumber, UInt32.toNat_zero]
    omega
  have hterm : (corpus.anchored ⟨.ofWord word, UInt32.ofNat position⟩).posting.Holds
      (draft.index.tokensOf (.ofWord word)) := h.getD_holds (.ofWord word)
  obtain ⟨next, hnext, hsame, hmeeting, -⟩ := Anchored.intersect_yields hholds hterm
  rw [hoffset, h.meeting_tokensOf_word] at hmeeting
  exact ⟨next, hnext, hsame.trans hposition, hmeeting⟩

/-- Behind the words of a phrase those tokens are left that have each of the words at its
distance. -/
theorem refineAll_phrase (h : corpus.OfDraft analyze draft) {result : Anchored}
    {members : List UInt32} (hposition : result.position = 0)
    (hholds : result.posting.Holds members) (later : List String) (position : Nat)
    (hfits : position + later.length ≤ UInt32.size) :
    ∃ results last, corpus.refineAll result (phraseFrom position later) = .ok results
      ∧ (result :: results).getLast? = some last ∧ last.position = 0
      ∧ last.posting.Holds (members.filter fun member =>
          corpus.ReadsFrom (member.toNat + position) later) := by
  induction later generalizing result members position with
  | nil =>
    have hall : members.filter (fun member => corpus.ReadsFrom (member.toNat + position) [])
        = members := List.filter_eq_self.mpr fun member _ => by simp [ReadsFrom]
    rw [hall]
    exact ⟨[], result, rfl, rfl, hposition, hholds⟩
  | cons word later ih =>
    rw [List.length_cons] at hfits
    obtain ⟨next, hnext, hnextPosition, hnextHolds⟩ :=
      h.refine_word hposition hholds word position (by omega)
    obtain ⟨results, last, hresults, hlast, hlastPosition, hlastHolds⟩ :=
      ih hnextPosition hnextHolds (position + 1) (by omega)
    refine ⟨next :: results, last, ?_, hlast, hlastPosition, ?_⟩
    · rw [phraseFrom, refineAll, hnext]
      show (corpus.refineAll next (phraseFrom (position + 1) later) >>= _) = _
      rw [hresults]
      rfl
    · rw [← filter_readsFrom_cons]
      exact hlastHolds

/-- All words of a phrase that is read are words of the corpus. -/
theorem le_of_readsFrom (h : corpus.OfDraft analyze draft) {token : Nat} {word : String}
    {later : List String} (hreads : corpus.ReadsFrom token (word :: later)) :
    token + (word :: later).length ≤ corpus.tokenCount := by
  have hlast := hreads later.length (Nat.lt_succ_self _)
  rw [List.getElem?_eq_getElem (Nat.lt_succ_self _)] at hlast
  exact h.lt_of_tokenKey?_eq_some hlast

/-- The tokens of a word with the later words behind it are those that a scan finds. -/
theorem map_toNat_filter_eq_scan (h : corpus.OfDraft analyze draft) (first : String)
    (later : List String) :
    ((draft.index.tokensOf (.ofWord first)).filter fun member =>
        corpus.ReadsFrom (member.toNat + 1) later).map UInt32.toNat
      = corpus.scan (first :: later) := by
  have hasc := (h.sound.ascends.tokensOf (.ofWord first)).1
  -- both lists ascend, so it is enough that they have the same tokens
  refine List.Pairwise.eq_of_mem_iff (r := (· < ·)) (List.pairwise_map.mpr (hasc.filter _))
    (List.pairwise_lt_range.filter _) ?_
  intro token
  rw [List.mem_map, scan, List.mem_filter, List.mem_range, decide_eq_true_iff]
  simp only [List.mem_filter, decide_eq_true_iff, h.mem_tokensOf_word]
  constructor
  · rintro ⟨member, ⟨hkey, hlater⟩, rfl⟩
    have hreads := (readsFrom_cons ..).mpr ⟨hkey, hlater⟩
    exact ⟨h.lt_of_tokenKey?_eq_some hkey, h.le_of_readsFrom hreads, hreads⟩
  · rintro ⟨hlt, -, hreads⟩
    have hnumber : (UInt32.ofNat token).toNat = token :=
      UInt32.toNat_ofNat_of_lt' (Nat.lt_trans hlt h.tokenCount_lt)
    refine ⟨UInt32.ofNat token, ?_, hnumber⟩
    rw [hnumber]
    exact (readsFrom_cons ..).mp hreads

end OfDraft

/-- A phrase query finds what a scan of the text finds, in every corpus that is built and however
its lists are stored: the tokens at which the words of the phrase follow each other. -/
theorem phrase_agrees_with_scan {reader : Reader} {ratio : UInt32} {works : List Work}
    {corpus : Corpus} (h : ofWorks reader ratio works = .ok corpus) (first : String)
    (later : List String) (hlater : later.length < 2 ^ 32) :
    ∃ results last members, corpus.search ⟨.ofWord first, 0⟩ (phraseFrom 1 later) = .ok results
      ∧ results.getLast? = some last
      ∧ last.position = 0
      ∧ last.posting.members = .ok members
      ∧ members.Pairwise (· < ·)
      ∧ members.map (·.toNat) = corpus.scan (first :: later) := by
  obtain ⟨draft, hdraft⟩ := exists_ofDraft h
  have hfirst : (corpus.anchored ⟨.ofWord first, 0⟩).posting.Holds
      (draft.index.tokensOf (.ofWord first)) := hdraft.getD_holds (.ofWord first)
  have hfits : 1 + later.length ≤ UInt32.size := by
    unfold UInt32.size
    omega
  obtain ⟨results, last, hresults, hlast, hposition, hholds⟩ :=
    hdraft.refineAll_phrase rfl hfirst later 1 hfits
  refine ⟨corpus.anchored ⟨.ofWord first, 0⟩ :: results, last, _, ?_, hlast, hposition,
    hholds.members_eq, hholds.ascending, hdraft.map_toNat_filter_eq_scan first later⟩
  rw [search, hresults]
  rfl

/-- In a text of one word, the word is found and the word with another behind it is not. -/
theorem phrase_agrees_with_scan_gallic :
    ∃ corpus, ofWorks gallicReader 32 [gallicWork] = .ok corpus
      ∧ (∃ results last members, corpus.search ⟨.ofWord "gallia", 0⟩ (phraseFrom 1 [])
          = .ok results ∧ results.getLast? = some last ∧ last.posting.members = .ok members
          ∧ members.map (·.toNat) = [0])
      ∧ ∃ results last members, corpus.search ⟨.ofWord "gallia", 0⟩ (phraseFrom 1 ["est"])
          = .ok results ∧ results.getLast? = some last ∧ last.posting.members = .ok members
          ∧ members.map (·.toNat) = [] := by
  obtain ⟨corpus, hcorpus, hcount, htext⟩ := exists_ofWorks_gallicWork
  have hkey : corpus.tokenKey? 0 = some "gallia" := by
    rw [tokenKey?, htext]
    decide +kernel
  refine ⟨corpus, hcorpus, ?_, ?_⟩
  · obtain ⟨results, last, members, hresults, hlast, -, hmembers, -, hscan⟩ :=
      phrase_agrees_with_scan hcorpus "gallia" [] (by decide)
    refine ⟨results, last, members, hresults, hlast, hmembers, hscan.trans ?_⟩
    rw [scan, hcount]
    simp [ReadsFrom, hkey]
  · obtain ⟨results, last, members, hresults, hlast, -, hmembers, -, hscan⟩ :=
      phrase_agrees_with_scan hcorpus "gallia" ["est"] (by decide)
    refine ⟨results, last, members, hresults, hlast, hmembers, hscan.trans ?_⟩
    rw [scan, hcount]
    simp

end Concordance.Corpus
