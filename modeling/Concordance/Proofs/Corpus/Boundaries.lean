import Concordance.Proofs.Corpus.Wording

/-!
# The hard boundaries of a corpus

A token stands before a hard boundary for one of three reasons: its work ends with it, there is a
full stop behind it, or the next row of its work lies in another part of the work
(`Corpus.hard_boundaries_of_rows`).

- `SectionId.Apart`: two section ids differ in more than the last part.
-/

namespace Concordance

namespace SectionId

/-- Two section ids differ in more than the last part: in their depths, or in a part before the last
one. -/
def Apart (previous current : SectionId) : Prop :=
  previous.length ≠ current.length
    ∨ ∃ depth, depth + 1 < current.length ∧ previous[depth]? ≠ current[depth]?

variable {previous current : SectionId}

theorem apart_iff :
    Apart previous current
      ↔ ¬(previous.length = current.length ∧ previous.dropLast = current.dropLast) := by
  unfold Apart
  by_cases hlength : previous.length = current.length
  · simp only [hlength, ne_eq, not_true_eq_false, false_or, true_and]
    rw [List.ext_getElem?_iff, not_forall]
    refine exists_congr ?_
    intro depth
    rw [List.getElem?_dropLast, List.getElem?_dropLast, hlength]
    by_cases hdepth : depth < current.length - 1
    · rw [if_pos hdepth, if_pos hdepth]
      simp only [and_iff_right (show depth + 1 < current.length by omega)]
    · rw [if_neg hdepth, if_neg hdepth]
      simp only [not_true_eq_false, iff_false, not_and]
      omega
  · simp only [hlength, ne_eq, not_false_eq_true, true_or, false_and]

/-- A boundary is hard between section ids that differ in more than the last part. -/
theorem boundary_eq_hard_iff :
    boundary previous current = .ok .hard
      ↔ current.isWellFormed = true ∧ Apart previous current := by
  rw [apart_iff]
  unfold boundary
  by_cases hwell : current.isWellFormed = true
  · rw [if_neg (by simp [hwell])]
    by_cases hsame : previous = current
    · rw [if_pos hsame, hsame]
      simp
    · rw [if_neg hsame]
      split
      case isTrue hparents => simp [hparents]
      case isFalse hparents => simp [hwell, hparents]
  · rw [if_pos (by simpa using hwell)]
    simp [hwell]

end SectionId

namespace Work

variable {work : Work}

theorem boundaryBefore_succ_eq_some_iff {row : Nat} {boundary : Boundary} :
    work.boundaryBefore (row + 1) = some boundary
      ↔ ∃ previous id, work.rowIds[row]? = some previous ∧ work.rowIds[row + 1]? = some id
        ∧ SectionId.boundary previous id = .ok boundary := by
  have htoOption : ∀ found : Except SectionProblem Boundary,
      found.toOption = some boundary ↔ found = .ok boundary := by
    intro found
    cases found <;> simp [Except.toOption]
  unfold boundaryBefore idBefore
  simp only [Option.bind_eq_bind, Option.bind_eq_some_iff, htoOption]
  constructor
  · rintro ⟨previous, hprevious, id, hid, hboundary⟩
    exact ⟨previous, id, hprevious, hid, hboundary⟩
  · rintro ⟨previous, id, hprevious, hid, hboundary⟩
    exact ⟨previous, hprevious, id, hid, hboundary⟩

/-- Between well-formed section ids, the hard boundaries of a work are before the rows that lie
apart from the row before. -/
theorem parts_iff (hids : ∀ id ∈ work.rowIds, id.isWellFormed = true) {start token : Nat}
    {spans : List RowSpan} :
    work.Parts start spans token
      ↔ ∃ row previous id span, work.rowIds[row]? = some previous ∧ work.rowIds[row + 1]? = some id
        ∧ SectionId.Apart previous id ∧ spans[row + 1]? = some span
        ∧ span.start = token + 1 ∧ start < token + 1 := by
  unfold Parts
  constructor
  · rintro ⟨row, span, hhard, hspan, hplace⟩
    cases row with
    | zero => cases hhard
    | succ row =>
      obtain ⟨previous, id, hprevious, hid, hboundary⟩ := boundaryBefore_succ_eq_some_iff.mp hhard
      exact ⟨row, previous, id, span, hprevious, hid,
        (SectionId.boundary_eq_hard_iff.mp hboundary).2, hspan, hplace⟩
  · rintro ⟨row, previous, id, span, hprevious, hid, hapart, hspan, hplace⟩
    have hboundary : SectionId.boundary previous id = .ok .hard :=
      SectionId.boundary_eq_hard_iff.mpr ⟨hids id (List.mem_of_getElem? hid), hapart⟩
    exact ⟨row + 1, span, boundaryBefore_succ_eq_some_iff.mpr
      ⟨previous, id, hprevious, hid, hboundary⟩, hspan, hplace⟩

/-- A hard boundary of a work is behind one of its tokens. -/
theorem bounds_of_endsAt {span : WorkSpan} (hfilled : span.start < span.stop)
    (htiles : Tiles span.stop span.start (span.rows.toList.map (·.range))) {token : Nat}
    (h : work.EndsAt span token) : span.start ≤ token ∧ token < span.stop := by
  rcases h with hlast | ⟨row, rowSpan, -, hrow, hstart, hlt⟩
  · omega
  · have hmem : rowSpan.range ∈ span.rows.toList.map (·.range) :=
      List.mem_map_of_mem (List.mem_of_getElem? hrow)
    have hbounds : rowSpan.start ≤ rowSpan.stop ∧ rowSpan.stop ≤ span.stop :=
      (htiles.bounds hmem).2
    omega

end Work

/-- The token of a hard boundary belongs to the work that the boundary is in. -/
theorem WorksTaken.exists_endsAt_iff {tokenizer : Tokenizer} {draft : Draft} {works : List Work}
    (h : WorksTaken tokenizer draft works) {work : Work} {span : WorkSpan}
    (hpair : (work, span) ∈ works.zip draft.works.toList) {token : Nat}
    (hstart : span.start ≤ token) (hstop : token < span.stop) :
    (∃ pair ∈ works.zip draft.works.toList, Work.EndsAt pair.1 pair.2 token)
      ↔ work.EndsAt span token := by
  constructor
  · rintro ⟨⟨other, otherSpan⟩, hother, hends⟩
    obtain ⟨hfilled, htiles, -⟩ := h.rows _ hother
    obtain ⟨index, hindex⟩ := List.getElem?_of_mem hpair
    obtain ⟨otherIndex, hotherIndex⟩ := List.getElem?_of_mem hother
    -- the token lies in both works, so they are the same
    have hrange : ∀ {index : Nat} {pair : Work × WorkSpan},
        (works.zip draft.works.toList)[index]? = some pair →
          (draft.works.toList.map (·.range))[index]? = some pair.2.range := by
      intro index pair hfound
      rw [List.getElem?_map, (List.getElem?_zip_eq_some.mp hfound).2]
      rfl
    have hsame := h.tiles.index_eq (hrange hindex) (hrange hotherIndex) ⟨hstart, hstop⟩
      (Work.bounds_of_endsAt hfilled htiles hends)
    rw [hsame, hotherIndex] at hindex
    cases hindex
    exact hends
  · intro hends
    exact ⟨(work, span), hpair, hends⟩

/-- The tokens before hard boundaries are stored densely. -/
theorem Draft.isDense_of_pack {tokens ratio : UInt32} {list : Array UInt32} {posting : Posting}
    (h : pack tokens ratio .hardBreak list = .ok posting) : posting.isDense = true := by
  unfold pack at h
  rw [mapError_eq_ok, if_pos rfl] at h
  obtain ⟨mask, -, rfl⟩ := map_eq_ok.mp h
  rfl

namespace Corpus

/-- In every corpus that is built, the works lie end to end, and the list of the hard boundaries is
dense. A token of a work is in it exactly if it is the last token of the work, or there is a full
stop between it and the next token, or the next token starts a row of the same work whose section id
differs from that of the row before in more than the last part. -/
theorem hard_boundaries_of_rows {reader : Reader} {ratio : UInt32} {works : List Work}
    {corpus : Corpus} (h : ofWorks reader ratio works = .ok corpus) :
    corpus.works.size = works.length
      ∧ Tiles corpus.tokenCount 0 (corpus.works.toList.map (·.range))
      ∧ ∃ posting members, corpus.posting? .hardBreak = some posting ∧ posting.isDense = true
        ∧ posting.members = .ok members ∧ members.Pairwise (· < ·)
        ∧ (∀ member ∈ members, member.toNat < corpus.tokenCount)
        ∧ ∀ work span, (work, span) ∈ works.zip corpus.works.toList →
          ∀ token : UInt32, span.start ≤ token.toNat → token.toNat < span.stop →
            (token ∈ members ↔ token.toNat + 1 = span.stop
              ∨ (∃ text, corpus.breakText? token.toNat = some text ∧ '.' ∈ text.toList)
              ∨ ∃ row previous id rowSpan, work.rowIds[row]? = some previous
                ∧ work.rowIds[row + 1]? = some id ∧ SectionId.Apart previous id
                ∧ span.rows[row + 1]? = some rowSpan ∧ rowSpan.start = token.toNat + 1
                ∧ span.start < token.toNat + 1) := by
  obtain ⟨draft, htaken, hdraft, hfinish⟩ := exists_worksTaken h
  obtain ⟨hcount, -, hindex, hworks, -⟩ := Draft.finish_eq_ok hfinish
  obtain ⟨hascending, hlt⟩ := hdraft.sound.ascends.tokensOf .hardBreak
  rw [hworks, hcount]
  refine ⟨htaken.size_eq, htaken.tiles, ?_⟩
  rcases Draft.getElem?_packIndex hindex .hardBreak with
    ⟨list, posting, hlist, hposting, hpack⟩ | ⟨habsent, -⟩
  · have htokens : draft.index.tokensOf .hardBreak = list.toList := by
      rw [DraftIndex.tokensOf, hlist, Option.getD_some]
    have hmembers := (Draft.holds_of_pack (htokens ▸ hascending) hpack).members_eq
    rw [← htokens] at hmembers
    refine ⟨posting, _, hposting, Draft.isDense_of_pack hpack, hmembers, hascending, hlt, ?_⟩
    intro work span hpair token hstart hstop
    have hdotted : draft.Dotted token.toNat
        ↔ ∃ text, corpus.breakText? token.toNat = some text ∧ '.' ∈ text.toList := by
      rw [breakText?, (hdraft.spells.lookups_eq token.toNat).2, Array.getElem?_toList]
      simp [Draft.Dotted]
    rw [htaken.tells.mem_hardBreak, htaken.exists_endsAt_iff hpair hstart hstop, hdotted,
      Work.EndsAt, Work.parts_iff (htaken.rows _ hpair).2.2, or_left_comm]
    simp only [Array.getElem?_toList]
  · rw [DraftIndex.list?_hardBreak] at habsent
    cases habsent

/-- Of the three words of the Gallic War, the second stands before the row of the next chapter, as
the third row has no word, and the last one ends the work. The boundary behind the first is soft. -/
theorem hard_boundaries_of_rows_gallic : ∃ corpus posting members,
    ofWorks gallicReader 32 [gallicRows] = .ok corpus
      ∧ corpus.posting? .hardBreak = some posting ∧ posting.members = .ok members
      ∧ (0 : UInt32) ∉ members ∧ (1 : UInt32) ∈ members ∧ (2 : UInt32) ∈ members := by
  obtain ⟨corpus, hcorpus, hworks, hbreak⟩ := exists_ofWorks_gallicRows
  obtain ⟨-, -, posting, members, hposting, -, hmembers, -, -, hiff⟩ :=
    hard_boundaries_of_rows hcorpus
  have hpair : (gallicRows, gallicSpan) ∈ [gallicRows].zip corpus.works.toList := by
    rw [hworks]
    exact List.mem_singleton_self _
  have hmem := hiff gallicRows gallicSpan hpair
  refine ⟨corpus, posting, members, hcorpus, hposting, hmembers, ?_, ?_, ?_⟩
  · intro hfirst
    rcases (hmem 0 (by decide) (by decide)).mp hfirst with
      hlast | ⟨text, htext, hstop⟩
        | ⟨row, previous, id, span, hprevious, hid, hapart, hrow, hstart, -⟩
    · cases hlast
    · rw [UInt32.toNat_zero, hbreak] at htext
      cases htext
      revert hstop
      decide +kernel
    · -- only the second row starts behind the first word
      match row with
      | 0 =>
        cases hprevious
        cases hid
        revert hapart
        rw [SectionId.apart_iff]
        decide
      | 1 =>
        cases hrow
        cases hstart
      | 2 =>
        cases hrow
        cases hstart
      | row + 3 => cases hrow
  · refine (hmem 1 (by decide) (by decide)).mpr (.inr (.inr ?_))
    exact ⟨2, ["1", "3"], ["2", "1"], ⟨"2.1", 2, 3⟩, rfl, rfl, .inr ⟨0, by decide, by decide⟩, rfl,
      rfl, by decide⟩
  · exact (hmem 2 (by decide) (by decide)).mpr (.inl rfl)

end Corpus

end Concordance
