import Concordance.Corpus.Query
import Concordance.Proofs.Posting.Widths

/-!
# Queries on stored lists

A query has an answer on plain lists: `answers` combines the lists of its terms one after the other.
On every corpus that stores these lists, in whatever forms, the query succeeds and its results read
back as the answers (`Corpus.Stores.search_answers`), as long as tokens and positions stay below
2^30.

The bound keeps every step right (`Corpus.Stores.refine_bounded`): results have members below 2^31
and masks of at most 2^26 words, since a union moves the tokens of a term by less than 2^30 and the
other combinations add nothing.
-/

namespace Concordance

/-! ## Answers -/

/-- What a link makes of the members so far and those of a term, which move by `offset`. -/
def Link.combine (link : Link) (offset : Int) (first second : List UInt32) : List UInt32 :=
  match link with
  | .meet => Anchored.meeting offset first second
  | .join => Merge.uniteLists offset first second
  | .nearby radius direction => Anchored.nearby offset radius.toNat direction first second

/-- The members after each further term, from those of a first term at `position` on. -/
def answers (lists : IndexKey → List UInt32) (position : UInt32) (members : List UInt32) :
    List (Link × Term) → List (List UInt32)
  | [] => []
  | (link, term) :: later =>
    let next := link.combine ((position.toNat : Int) - (term.position.toNat : Int)) members
      (lists term.key)
    next :: answers lists position next later

/-- An anchored list stands for members below 2^31, in a mask of at most 2^26 words if it is
dense. -/
structure Anchored.Bounded (anchored : Anchored) (members : List UInt32) : Prop where
  holds : anchored.posting.Holds members
  below : ∀ member ∈ members, member.toNat < 2 ^ 31
  words_le : anchored.posting.words ≤ 2 ^ 26

/-- A result at a position that reads back as the given members. -/
def Anchored.ReadsAs (position : UInt32) (anchored : Anchored) (members : List UInt32) : Prop :=
  anchored.position = position ∧ anchored.posting.members = .ok members

/-! ## Stored lists -/

namespace Corpus

/-- A corpus has a posting list for each of the given lists of tokens, where a missing one counts as
empty, and no mask is longer than its tokens need. -/
structure Stores (corpus : Corpus) (lists : IndexKey → List UInt32) : Prop where
  holds : ∀ key, ((corpus.posting? key).getD .empty).Holds (lists key)
  below : ∀ key, ∀ member ∈ lists key, member.toNat < corpus.tokenCount
  words_le : ∀ key, ((corpus.posting? key).getD .empty).words ≤ Mask.wordsFor corpus.tokenCount

namespace Stores

variable {corpus : Corpus} {lists : IndexKey → List UInt32} {result : Anchored}
  {members : List UInt32}

/-- The masks of a corpus of fewer than 2^30 tokens have at most 2^25 words. -/
theorem words_anchored_le (h : corpus.Stores lists) (hcount : corpus.tokenCount < 2 ^ 30)
    (term : Term) : (corpus.anchored term).posting.words ≤ 2 ^ 25 := by
  have hwords := h.words_le term.key
  unfold Mask.wordsFor Mask.wordBits at hwords
  exact Nat.le_trans hwords (by omega)

/-- A term of a query is in bounds. -/
theorem anchored_bounded (h : corpus.Stores lists) (hcount : corpus.tokenCount < 2 ^ 30)
    (term : Term) : (corpus.anchored term).Bounded (lists term.key) where
  holds := h.holds term.key
  below member hmember := by
    have hlt := h.below term.key member hmember
    omega
  words_le := Nat.le_trans (h.words_anchored_le hcount term) (by decide)

/-- The tokens of a term move by less than 2^30. -/
theorem moved_lt (h : corpus.Stores lists) (hcount : corpus.tokenCount < 2 ^ 30)
    (hposition : result.position.toNat < 2 ^ 30) (term : Term) {other : UInt32}
    (hother : other ∈ lists term.key) :
    (other.toNat : Int) + result.offset (corpus.anchored term) < 2 ^ 31 := by
  have hlt := h.below term.key other hother
  have hoffset : result.offset (corpus.anchored term)
      = (result.position.toNat : Int) - (term.position.toNat : Int) := rfl
  omega

/-- A union of results in bounds is in bounds. -/
theorem unite_bounded (h : corpus.Stores lists) (hcount : corpus.tokenCount < 2 ^ 30)
    (hresult : result.Bounded members) (hposition : result.position.toNat < 2 ^ 30) (term : Term) :
    ∃ next, result.unite (corpus.anchored term) = .ok next ∧ next.position = result.position
      ∧ next.Bounded (Merge.uniteLists (result.offset (corpus.anchored term)) members
          (lists term.key)) := by
  have hterm : (corpus.anchored term).posting.Holds (lists term.key) := h.holds term.key
  have hmoved (other : UInt32) (hother : other ∈ lists term.key) :=
    h.moved_lt hcount hposition term hother
  have hbelow : ∀ value ∈ Merge.uniteLists (result.offset (corpus.anchored term)) members
      (lists term.key), value.toNat < 2 ^ 31 := by
    intro value hvalue
    rcases (Merge.mem_uniteLists ..).mp hvalue with hmember | ⟨other, hother, heq⟩
    · exact hresult.below value hmember
    · have hlt := hmoved other hother
      omega
  have hlength := length_lt_of_notMem
    (Merge.uniteLists_ascending _ hresult.holds.ascending hterm.ascending)
    fun hmem => absurd (hbelow 0x80000000 hmem) (by decide)
  obtain ⟨next, hnext, hsame, hholds, -⟩ := Anchored.unite_yields hresult.holds hterm
    (fun other hother => Int.lt_trans (hmoved other hother) (by decide)) fun _ => hlength
  refine ⟨next, hnext, hsame, hholds, hbelow, ?_⟩
  refine Anchored.words_unite_le hresult.holds hterm hresult.words_le ?_ ?_ hnext
  · have hwords := h.words_anchored_le hcount term
    have hoffset : result.offset (corpus.anchored term)
        = (result.position.toNat : Int) - (term.position.toNat : Int) := rfl
    omega
  · intro value hvalue
    exact hbelow value hvalue

/-- A further term succeeds, and its result is in bounds again. -/
theorem refine_bounded (h : corpus.Stores lists) (hcount : corpus.tokenCount < 2 ^ 30)
    (hresult : result.Bounded members) (hposition : result.position.toNat < 2 ^ 30) (link : Link)
    (term : Term) :
    ∃ next, corpus.refine result link term = .ok next ∧ next.position = result.position
      ∧ next.Bounded (link.combine ((result.position.toNat : Int) - (term.position.toNat : Int))
          members (lists term.key)) := by
  have hterm : (corpus.anchored term).posting.Holds (lists term.key) := h.holds term.key
  have hoffset : result.offset (corpus.anchored term)
      = (result.position.toNat : Int) - (term.position.toNat : Int) := rfl
  rw [← hoffset]
  cases link with
  | meet =>
    obtain ⟨next, hnext, hsame, hholds, -⟩ := Anchored.intersect_yields hresult.holds hterm
    refine ⟨next, hnext, hsame, hholds, ?_, ?_⟩
    · intro member hmember
      exact hresult.below member (List.mem_of_mem_filter hmember)
    · exact Nat.le_trans (Anchored.words_intersect_le hnext) hresult.words_le
  | join => exact h.unite_bounded hcount hresult hposition term
  | nearby radius direction =>
    have hwords : ∀ mask, result.posting = .dense mask → mask.size < 2 ^ 27 := by
      intro mask hmask
      have hle := hresult.words_le
      rw [hmask] at hle
      exact Nat.lt_of_le_of_lt hle (by decide)
    obtain ⟨next, hnext, hsame, hholds, -⟩ :=
      Anchored.near_yields hresult.holds hterm hwords radius direction
    refine ⟨next, hnext, hsame, hholds, ?_, ?_⟩
    · intro member hmember
      exact hresult.below member (List.mem_of_mem_filter hmember)
    · exact Nat.le_trans (Anchored.words_near_le hnext) hresult.words_le

/-- The results after the further terms of a query read back as the answers on plain lists. -/
theorem refineAll_answers (h : corpus.Stores lists) (hcount : corpus.tokenCount < 2 ^ 30)
    (hresult : result.Bounded members) (hposition : result.position.toNat < 2 ^ 30)
    (later : List (Link × Term)) :
    ∃ results, corpus.refineAll result later = .ok results
      ∧ List.Forall₂ (Anchored.ReadsAs result.position) results
          (answers lists result.position members later) := by
  induction later generalizing result members with
  | nil => exact ⟨[], rfl, .nil⟩
  | cons step later ih =>
    obtain ⟨link, term⟩ := step
    obtain ⟨next, hnext, hsame, hbounded⟩ := h.refine_bounded hcount hresult hposition link term
    obtain ⟨results, hresults, hanswers⟩ := ih hbounded (by rw [hsame]; exact hposition)
    rw [hsame] at hanswers
    refine ⟨next :: results, ?_, .cons ⟨hsame, hbounded.holds.members_eq⟩ hanswers⟩
    rw [refineAll, hnext]
    show (corpus.refineAll next later >>= _) = _
    rw [hresults]
    rfl

/-- A query succeeds, and the result after each term reads back as the answer on plain lists. -/
theorem search_answers (h : corpus.Stores lists) (hcount : corpus.tokenCount < 2 ^ 30)
    {first : Term} (hposition : first.position.toNat < 2 ^ 30) (later : List (Link × Term)) :
    ∃ results, corpus.search first later = .ok results
      ∧ List.Forall₂ (Anchored.ReadsAs first.position) results
          (lists first.key :: answers lists first.position (lists first.key) later) := by
  have hfirst := h.anchored_bounded hcount first
  obtain ⟨results, hresults, hanswers⟩ := h.refineAll_answers hcount hfirst hposition later
  refine ⟨corpus.anchored first :: results, ?_, .cons ⟨rfl, hfirst.holds.members_eq⟩ hanswers⟩
  rw [search, hresults]
  rfl

end Stores

end Corpus

end Concordance
