import Concordance.Proofs.Corpus.Postings
import Concordance.Proofs.Corpus.Queries
import Concordance.Proofs.Corpus.Wording

/-!
# The ratio is not observable

The ratio of a build decides which lists are stored densely, and nothing else. Packing never fails
on the lists of a sound draft, so a build fails for reasons that no ratio changes
(`Draft.Sound.finish_eq_error_iff`); and whatever the ratio, the corpus stores the tokens of the
draft (`Draft.Sound.stores`), so every query has the same answers
(`Corpus.ratio_unobservable`).
-/

namespace Concordance

/-- A packed list has at most the words that the tokens need. -/
theorem Draft.words_le_of_pack {tokens ratio : UInt32} {key : IndexKey} {list : Array UInt32}
    {posting : Posting} (h : pack tokens ratio key list = .ok posting) :
    posting.words ≤ Mask.wordsFor tokens.toNat := by
  unfold pack at h
  rw [mapError_eq_ok] at h
  split at h
  case isTrue => exact Posting.words_le_of_ofMembersDense h
  case isFalse => exact Posting.words_le_of_pack h

namespace Draft.Sound

variable {analyze : String → List Analysis} {draft : Draft} {ratio : UInt32}

/-- 32 bits say the number of tokens. -/
theorem toNat_size (h : draft.Sound analyze) :
    (UInt32.ofNat draft.tokens.size).toNat = draft.tokens.size :=
  UInt32.toNat_ofNat_of_lt' (Nat.lt_of_le_of_lt h.size_le (by decide))

/-- Only the text can keep a sound draft from being finished. -/
theorem finish_eq_error_iff (h : draft.Sound analyze) (ratio : UInt32) (failure : BuildError) :
    draft.finish ratio = .error failure ↔ textOf draft.tokens.toList = .error failure := by
  obtain ⟨index, hindex⟩ := exists_packIndex h.ascends
    (Nat.lt_of_le_of_lt h.size_le (by decide)) ratio
  unfold finish
  simp only [hindex]
  cases textOf draft.tokens.toList with
  | error other =>
    constructor
    · intro hfailed
      cases hfailed
      rfl
    · intro hfailed
      cases hfailed
      rfl
  | ok text =>
    constructor
    · intro hfailed
      cases hfailed
    · intro hfailed
      cases hfailed

/-- The corpus of a sound draft stores the tokens of its keys. -/
theorem stores (h : draft.Sound analyze) {corpus : Corpus}
    (hfinish : draft.finish ratio = .ok corpus) : corpus.Stores draft.index.tokensOf where
  holds := (Corpus.ofDraft_of_finish h hfinish).getD_holds
  below key member hmember := by
    rw [(finish_eq_ok hfinish).1]
    exact (h.ascends.tokensOf key).2 member hmember
  words_le key := by
    obtain ⟨hcount, -, hindex, -⟩ := finish_eq_ok hfinish
    rw [hcount, ← h.toNat_size]
    rcases getElem?_packIndex hindex key with ⟨list, posting, -, hposting, hpack⟩ | ⟨-, hnone⟩
    · rw [Corpus.posting?, hposting, Option.getD_some]
      exact words_le_of_pack hpack
    · rw [Corpus.posting?, hnone, Option.getD_none]
      exact Nat.zero_le _

end Draft.Sound

/-! ## Two corpora of one draft -/

/-- Two results stand at one position and read back as the same members. -/
def Anchored.SameMembers (first second : Anchored) : Prop :=
  first.position = second.position
    ∧ ∃ members, first.posting.members = .ok members ∧ second.posting.members = .ok members

/-- Results that read back as the same members position by position. -/
theorem Anchored.sameMembers_of_readsAs {position : UInt32} {first second : List Anchored}
    {lists : List (List UInt32)} (hfirst : List.Forall₂ (ReadsAs position) first lists)
    (hsecond : List.Forall₂ (ReadsAs position) second lists) :
    List.Forall₂ SameMembers first second := by
  induction hfirst generalizing second with
  | nil =>
    cases hsecond
    exact .nil
  | cons hread _ ih =>
    cases hsecond with
    | cons hother hlater =>
      exact .cons ⟨hread.1.trans hother.1.symm, _, hread.2, hother.2⟩ (ih hlater)

namespace Corpus

/-- Two corpora have the same contents, in whatever forms their lists are stored. -/
structure SameContents (first second : Corpus) : Prop where
  tokenCount : first.tokenCount = second.tokenCount
  text : first.text = second.text
  works : first.works = second.works
  authors : first.authors = second.authors
  forms : first.forms = second.forms
  stats : first.stats = second.stats
  keys : ∀ key, (first.posting? key).isSome = (second.posting? key).isSome
  lists : ∀ key, ∃ members, Posting.membersOf (first.posting? key) = .ok members
    ∧ Posting.membersOf (second.posting? key) = .ok members

/-- A corpus has lists for the keys of its draft. -/
theorem isSome_posting?_iff {draft : Draft} {ratio : UInt32} {corpus : Corpus}
    (h : draft.finish ratio = .ok corpus) (key : IndexKey) :
    (corpus.posting? key).isSome ↔ (draft.index.list? key).isSome := by
  obtain ⟨-, -, hindex, -⟩ := Draft.finish_eq_ok h
  rw [posting?]
  rcases Draft.getElem?_packIndex hindex key with
    ⟨list, posting, hlist, hposting, -⟩ | ⟨hlist, hnone⟩
  · rw [hlist, hposting]
    exact Iff.rfl
  · rw [hlist, hnone]
    exact Iff.rfl

/-- The corpora that two ratios make of a draft have the same contents. -/
theorem sameContents_of_finish {analyze : String → List Analysis} {draft : Draft}
    (hsound : draft.Sound analyze) {ratio other : UInt32} {first second : Corpus}
    (hfirst : draft.finish ratio = .ok first) (hsecond : draft.finish other = .ok second) :
    first.SameContents second := by
  obtain ⟨hcount, htext, -, hworks, hauthors, hforms, hstats⟩ := Draft.finish_eq_ok hfirst
  obtain ⟨hcount', htext', -, hworks', hauthors', hforms', hstats'⟩ := Draft.finish_eq_ok hsecond
  refine ⟨hcount.trans hcount'.symm, ?_, hworks.trans hworks'.symm, hauthors.trans hauthors'.symm,
    hforms.trans hforms'.symm, hstats.trans hstats'.symm, fun key => ?_, fun key => ?_⟩
  · exact Except.ok.inj (htext.symm.trans htext')
  · rw [Bool.eq_iff_iff, isSome_posting?_iff hfirst, isSome_posting?_iff hsecond]
  · exact ⟨_, (ofDraft_of_finish hsound hfirst).membersOf_eq key,
      (ofDraft_of_finish hsound hsecond).membersOf_eq key⟩

/-- The ratio of a build cannot be told from what the corpus says. Builds with two ratios fail alike;
if they succeed, the corpora have the same contents. If there are fewer than 2^30 tokens, every query
whose first term is at a position below 2^30 succeeds in both corpora, and after every term the
results stand at the same position and read back as the same members. -/
theorem ratio_unobservable (reader : Reader) (works : List Work) (ratio other : UInt32) :
    (∀ failure, ofWorks reader ratio works = .error failure
      ↔ ofWorks reader other works = .error failure)
    ∧ ∀ first second, ofWorks reader ratio works = .ok first →
      ofWorks reader other works = .ok second →
      first.SameContents second
        ∧ (first.tokenCount < 2 ^ 30 → ∀ start : Term, start.position.toNat < 2 ^ 30 → ∀ later,
          ∃ results others, first.search start later = .ok results
            ∧ second.search start later = .ok others
            ∧ List.Forall₂ Anchored.SameMembers results others) := by
  constructor
  · intro failure
    unfold ofWorks
    cases hdraft : works.foldlM (Draft.addWork reader) .empty with
    | error failed => exact Iff.rfl
    | ok draft =>
      have hsound := sound_of_foldlM_addWork hdraft
      exact (hsound.finish_eq_error_iff ratio failure).trans
        (hsound.finish_eq_error_iff other failure).symm
  · intro first second hfirst hsecond
    unfold ofWorks at hfirst hsecond
    obtain ⟨draft, hdraft, hfirst⟩ := bind_eq_ok.mp hfirst
    obtain ⟨same, hsame, hsecond⟩ := bind_eq_ok.mp hsecond
    rw [hdraft] at hsame
    cases hsame
    have hsound := sound_of_foldlM_addWork hdraft
    have hcontents := sameContents_of_finish hsound hfirst hsecond
    refine ⟨hcontents, fun hcount start hstart later => ?_⟩
    have hcount' : second.tokenCount < 2 ^ 30 := by
      rw [← hcontents.tokenCount]
      exact hcount
    obtain ⟨results, hresults, hanswers⟩ :=
      (hsound.stores hfirst).search_answers hcount hstart later
    obtain ⟨others, hothers, hanswers'⟩ :=
      (hsound.stores hsecond).search_answers hcount' hstart later
    exact ⟨results, others, hresults, hothers,
      Anchored.sameMembers_of_readsAs hanswers hanswers'⟩

/-- Further terms of a query: the next word is a form of a headword, and a hard boundary is close. -/
def gallicTerms : List (Link × Term) :=
  [(.meet, ⟨.ofHeadword "Gallia", 2⟩), (.nearby 1 .left, ⟨.hardBreak, 1⟩)]

/-- The forms and the members of the results of a query. -/
def storedResults (corpus : Corpus) (start : Term) (later : List (Link × Term)) :
    Option (List (Bool × Option (List UInt32))) :=
  (corpus.search start later).toOption.map fun results =>
    results.map fun result => (result.posting.isDense, result.posting.members.toOption)

/-- The work of four rows built with the ratios 32 and 0, and a query of three terms. The results
are stored densely in the one corpus and sparsely in the other, and have the same members. -/
theorem ratio_unobservable_gallic :
    ∃ first second, ofWorks gallicReader 32 [gallicRows] = .ok first
      ∧ ofWorks gallicReader 0 [gallicRows] = .ok second
      ∧ first.SameContents second
      ∧ (∃ results others, first.search ⟨.ofWord "gallia", 1⟩ gallicTerms = .ok results
        ∧ second.search ⟨.ofWord "gallia", 1⟩ gallicTerms = .ok others
        ∧ List.Forall₂ Anchored.SameMembers results others)
      ∧ first.storedResults ⟨.ofWord "gallia", 1⟩ gallicTerms
        = some [(true, some [0, 1, 2]), (true, some [0, 1]), (true, some [0, 1])]
      ∧ second.storedResults ⟨.ofWord "gallia", 1⟩ gallicTerms
        = some [(false, some [0, 1, 2]), (false, some [0, 1]), (false, some [0, 1])] := by
  have hdense : (gallicNoted.finish 32).map (·.storedResults ⟨.ofWord "gallia", 1⟩ gallicTerms)
      = .ok (some [(true, some [0, 1, 2]), (true, some [0, 1]), (true, some [0, 1])]) := by
    decide +kernel
  have hsparse : (gallicNoted.finish 0).map (·.storedResults ⟨.ofWord "gallia", 1⟩ gallicTerms)
      = .ok (some [(false, some [0, 1, 2]), (false, some [0, 1]), (false, some [0, 1])]) := by
    decide +kernel
  obtain ⟨first, hfirst, hresults⟩ := map_eq_ok.mp hdense
  obtain ⟨second, hsecond, hothers⟩ := map_eq_ok.mp hsparse
  have hbuilt := ofWorks_gallicRows hfirst
  have hrebuilt := ofWorks_gallicRows hsecond
  obtain ⟨-, hsame⟩ := ratio_unobservable gallicReader [gallicRows] 32 0
  obtain ⟨hcontents, hsearch⟩ := hsame first second hbuilt hrebuilt
  have hcount : first.tokenCount < 2 ^ 30 := by
    rw [(Draft.finish_eq_ok hfirst).1]
    decide +kernel
  refine ⟨first, second, hbuilt, hrebuilt, hcontents, ?_, hresults, hothers⟩
  exact hsearch hcount ⟨.ofWord "gallia", 1⟩ (by decide) gallicTerms

end Corpus

end Concordance
