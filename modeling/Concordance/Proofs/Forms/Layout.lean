import Mathlib.Data.List.Basic
import Mathlib.Data.List.Pairwise
import Concordance.Proofs.Except
import Concordance.Proofs.Forms.Span
import Concordance.Proofs.Forms.Table
import Concordance.Proofs.Tiling

/-!
# Where the records of forms lie

The buffer of a form table is laid out like a shelf that is only ever filled at its end: behind the
reserved record come the records of the forms that have some, in the order in which the forms first
came, with no gap and no overlap. Every span can therefore be written, and no two forms share a
record.

- `FormTable.Fits`: what decides whether a new form is taken (`FormTable.exists_allot_iff`).
- `FormTable.Accounts`: a table is right about the forms of its tokens. Taking one more token keeps
  this (`FormTable.Accounts.add`).
-/

namespace Concordance

/-! ## Spans -/

namespace RecordSpan

/-- The places of a span in the buffer. -/
def range (span : RecordSpan) : Nat × Nat :=
  (span.offset.toNat, span.offset.toNat + span.length.toNat)

/-- A span can be written. -/
def Fits (span : RecordSpan) : Prop :=
  span.offset.toNat < offsetLimit ∧ span.length.toNat < lengthLimit

/-- Two spans have no record in common. -/
def Disjoint (first second : RecordSpan) : Prop :=
  first.range.2 ≤ second.range.1 ∨ second.range.2 ≤ first.range.1

end RecordSpan

namespace FormTable

variable {analyze : String → List Analysis} {table grown : FormTable}

/-! ## New forms -/

/-- A table has room for the records of analyses: there is nothing to keep, or a span can say where
it would lie. -/
def Fits (table : FormTable) (analyses : List Analysis) : Prop :=
  keptRecords analyses = []
    ∨ (table.records.size < RecordSpan.offsetLimit
      ∧ (keptRecords analyses).length < RecordSpan.lengthLimit)

/-- A table that has grown has no more room than before. -/
theorem Fits.of_size_le {analyses : List Analysis} (h : grown.Fits analyses)
    (hsize : table.records.size ≤ grown.records.size) : table.Fits analyses :=
  h.imp_right fun ⟨hoffset, hlength⟩ => ⟨Nat.lt_of_le_of_lt hsize hoffset, hlength⟩

/-- Where a new form gets its records: behind all others, if it has any, and nowhere if not. -/
theorem span_of_allot {form : String} {analyses : List Analysis} {entry : FormEntry}
    (h : table.allot form analyses = .ok (grown, entry)) :
    (keptRecords analyses = [] ∧ entry.span = .empty ∧ grown.records = table.records)
      ∨ (keptRecords analyses ≠ [] ∧ table.records.size < RecordSpan.offsetLimit
        ∧ (keptRecords analyses).length < RecordSpan.lengthLimit
        ∧ entry.span.offset.toNat = table.records.size
        ∧ entry.span.length.toNat = (keptRecords analyses).length
        ∧ grown.records.size = table.records.size + (keptRecords analyses).length) := by
  unfold allot at h
  unfold keptRecords
  simp only at h ⊢
  split at h
  case isTrue hnone =>
    cases h
    exact .inl ⟨if_pos hnone, rfl, rfl⟩
  case isFalse hsome =>
    rw [if_neg hsome]
    split at h
    case isTrue => cases h
    case isFalse hoffset =>
      split at h
      case isTrue => cases h
      case isFalse hlength =>
        cases h
        have hsize := Nat.lt_of_not_le hoffset
        have hcount := Nat.lt_of_not_le hlength
        exact .inr ⟨fun hnil => hsome (.inl hnil), hsize, hcount,
          UInt32.toNat_ofNat_of_lt' (Nat.lt_trans hsize (by decide)),
          UInt32.toNat_ofNat_of_lt' (Nat.lt_trans hcount (by decide)), by
            rw [← Array.length_toList, Array.toList_appendList, List.length_append,
              Array.length_toList]⟩

/-- A new form is taken exactly if there is room for its records. -/
theorem exists_allot_iff (table : FormTable) (form : String) (analyses : List Analysis) :
    (∃ result, table.allot form analyses = .ok result) ↔ table.Fits analyses := by
  constructor
  · rintro ⟨⟨grown, entry⟩, h⟩
    rcases span_of_allot h with ⟨hnone, -⟩ | ⟨-, hoffset, hlength, -⟩
    · exact .inl hnone
    · exact .inr ⟨hoffset, hlength⟩
  · intro h
    unfold allot
    unfold Fits keptRecords at h
    simp only at h ⊢
    split
    case isTrue => exact ⟨_, rfl⟩
    case isFalse hsome =>
      rw [if_neg hsome] at h
      rcases h with hnil | ⟨hoffset, hlength⟩
      · exact absurd (.inl hnil) hsome
      · rw [if_neg (Nat.not_le.mpr hoffset), if_neg (Nat.not_le.mpr hlength)]
        exact ⟨_, rfl⟩

/-- What taking one more token does: a form that has come before lends its entry, and another one
gets an entry of its own. -/
theorem add_eq_ok {form : String} {entry : FormEntry}
    (h : table.add analyze form = .ok (grown, entry)) :
    (table.entries[form]? = some entry ∧ grown = table.addToken entry)
      ∨ (table.entries[form]? = none ∧ ∃ made, table.allot form (analyze form) = .ok (made, entry)
        ∧ grown = made.addToken entry) := by
  rw [add_eq] at h
  cases hknown : table.entries[form]? with
  | some known =>
    rw [hknown] at h
    cases h
    exact .inl ⟨rfl, rfl⟩
  | none =>
    rw [hknown] at h
    obtain ⟨⟨made, new⟩, hallot, heq⟩ := map_eq_ok.mp h
    cases heq
    exact .inr ⟨rfl, made, hallot, rfl⟩

/-- What there is stays when one more token is taken, whatever its form is. -/
theorem grows_of_add {form : String} {entry : FormEntry}
    (h : table.add analyze form = .ok (grown, entry)) :
    (∃ more : List Record, grown.records = table.records ++ more)
      ∧ grown.tokenSpans = table.tokenSpans.push entry.span := by
  rcases add_eq_ok h with ⟨-, rfl⟩ | ⟨-, made, hallot, rfl⟩
  · exact ⟨⟨[], Array.appendList_nil.symm⟩, rfl⟩
  · obtain ⟨hrecords, -, hspans, -⟩ := allot_eq_ok hallot
    exact ⟨hrecords, congrArg (·.push entry.span) hspans⟩

/-- When a form gets no entry, and what is said about it. The buffer is looked at before the number
of records. -/
theorem allot_eq_error_iff {form : String} {analyses : List Analysis} {failure : BuildError} :
    table.allot form analyses = .error failure ↔
      let records := ascending (analyses.flatMap Analysis.records)
      records ≠ [] ∧ records ≠ [0]
        ∧ if RecordSpan.offsetLimit ≤ table.records.size then
            failure = .offsetOverflow table.records.size
          else RecordSpan.lengthLimit ≤ records.length
            ∧ failure = .lengthOverflow form records.length := by
  unfold allot
  generalize ascending (analyses.flatMap Analysis.records) = records
  simp only
  by_cases hnone : records = [] ∨ records = [0]
  case pos =>
    rw [if_pos hnone]
    refine iff_of_false nofun ?_
    rintro ⟨hnil, hzero, -⟩
    exact hnone.elim hnil hzero
  case neg =>
    rw [if_neg hnone]
    obtain ⟨hnil, hzero⟩ := not_or.mp hnone
    simp only [ne_eq, hnil, hzero, not_false_eq_true, true_and]
    by_cases hoffset : RecordSpan.offsetLimit ≤ table.records.size
    case pos =>
      rw [if_pos hoffset, if_pos hoffset, Except.error.injEq, eq_comm]
    case neg =>
      rw [if_neg hoffset, if_neg hoffset]
      by_cases hlength : RecordSpan.lengthLimit ≤ records.length
      case pos => rw [if_pos hlength, Except.error.injEq, and_iff_right hlength, eq_comm]
      case neg =>
        rw [if_neg hlength]
        exact iff_of_false nofun fun h => hlength h.1

/-- A call fails only for a form without an entry. -/
theorem add_eq_error_iff {form : String} {failure : BuildError} :
    table.add analyze form = .error failure
      ↔ table.entries[form]? = none ∧ table.allot form (analyze form) = .error failure := by
  rw [add_eq]
  cases table.entries[form]? with
  | some entry => exact iff_of_false nofun fun h => Option.some_ne_none entry h.1
  | none => exact map_eq_error.trans (and_iff_right rfl).symm

/-- A form is refused only when it is new and there is no room for its records. -/
theorem add_eq_error {form : String} {failure : BuildError}
    (h : table.add analyze form = .error failure) :
    table.entries[form]? = none ∧ ¬table.Fits (analyze form) := by
  obtain ⟨hnew, hfailed⟩ := add_eq_error_iff.mp h
  refine ⟨hnew, fun hfits => ?_⟩
  obtain ⟨made, hmade⟩ := (exists_allot_iff table form (analyze form)).mpr hfits
  rw [hmade] at hfailed
  cases hfailed

/-- Nothing but a lack of room keeps a form from having an entry. -/
theorem isCapacity_of_allot {form : String} {analyses : List Analysis} {failure : BuildError}
    (h : table.allot form analyses = .error failure) : failure.isCapacity = true := by
  obtain ⟨-, -, hfailure⟩ := allot_eq_error_iff.mp h
  split at hfailure
  case isTrue =>
    rw [hfailure]
    rfl
  case isFalse =>
    rw [hfailure.2]
    rfl

theorem isCapacity_of_add {form : String} {failure : BuildError}
    (h : table.add analyze form = .error failure) : failure.isCapacity = true :=
  isCapacity_of_allot (add_eq_error_iff.mp h).2

/-! ## All forms -/

/-- The span of a form that has come. -/
def span? (table : FormTable) (form : String) : Option RecordSpan :=
  table.entries[form]?.map (·.span)

/-- The span of a form that has records. -/
def filledSpan? (table : FormTable) (form : String) : Option RecordSpan :=
  (table.span? form).filter (·.length ≠ 0)

section

variable {form other : String} {analyses : List Analysis} {entry : FormEntry}

/-- Making an entry takes no records away. -/
theorem size_le_of_allot (h : table.allot form analyses = .ok (grown, entry)) :
    table.records.size ≤ grown.records.size := by
  rcases span_of_allot h with ⟨-, -, hsame⟩ | ⟨-, -, -, -, -, hsize⟩
  · rw [hsame]
  · omega

/-- A new form gets the entry that was made for it. -/
theorem getElem?_of_allot (h : table.allot form analyses = .ok (grown, entry)) :
    grown.entries[form]? = some entry := by
  rw [(allot_eq_ok h).2.1, Std.HashMap.getElem?_insert_self]

/-- The other forms keep their entries. -/
theorem getElem?_of_allot_of_ne (h : table.allot form analyses = .ok (grown, entry))
    (hne : other ≠ form) : grown.entries[other]? = table.entries[other]? := by
  rw [(allot_eq_ok h).2.1, Std.HashMap.getElem?_insert, if_neg (by simpa using hne.symm)]

/-- The other forms keep their spans. -/
theorem span?_of_allot_of_ne (h : table.allot form analyses = .ok (grown, entry))
    (hne : other ≠ form) : grown.span? other = table.span? other := by
  rw [span?, getElem?_of_allot_of_ne h hne, span?]

/-- Spans that lie end to end do so with the span of a new form behind them, if it has records. -/
theorem tiles_of_allot (h : table.allot form analyses = .ok (grown, entry)) {start : Nat}
    {spans : List RecordSpan} (htiles : Tiles table.records.size start (spans.map (·.range))) :
    Tiles grown.records.size start
      ((spans ++ (grown.filledSpan? form).toList).map (·.range)) := by
  rw [filledSpan?, span?, getElem?_of_allot h, Option.map_some]
  rcases span_of_allot h with
    ⟨-, hempty, hsame⟩ | ⟨hsome, -, -, hstart, hcount, hsize⟩
  · rw [hempty, hsame, Option.filter_some, if_neg (by decide), Option.toList_none,
      List.append_nil]
    exact htiles
  · have hpos : 0 < (keptRecords analyses).length := List.length_pos_of_ne_nil hsome
    have hne : entry.span.length ≠ 0 := by
      intro hzero
      rw [hzero, UInt32.toNat_zero] at hcount
      omega
    have hrange : entry.span.range = (table.records.size, grown.records.size) := by
      rw [RecordSpan.range, hstart, hcount, hsize]
    rw [Option.filter_some, if_pos (decide_eq_true hne), Option.toList_some, List.map_append,
      List.map_singleton, hrange]
    exact htiles.concat (by omega)

/-- The span of a new form can be written. -/
theorem fits_of_allot (h : table.allot form analyses = .ok (grown, entry)) : entry.span.Fits := by
  rcases span_of_allot h with ⟨-, hempty, -⟩ | ⟨-, hoffset, hlength, hstart, hcount, -⟩
  · rw [hempty]
    exact ⟨by decide, by decide⟩
  · exact ⟨hstart ▸ hoffset, hcount ▸ hlength⟩

/-- A new form without records gets the span of all such forms. -/
theorem span_eq_empty_of_allot (h : table.allot form analyses = .ok (grown, entry))
    (hzero : entry.span.length = 0) : entry.span = .empty := by
  rcases span_of_allot h with ⟨-, hempty, -⟩ | ⟨hsome, -, -, -, hcount, -⟩
  · exact hempty
  · rw [hzero, UInt32.toNat_zero] at hcount
    exact absurd (List.length_eq_zero_iff.mp hcount.symm) hsome

end

/-- A table is right about the forms of its tokens. -/
structure Accounts (analyze : String → List Analysis) (table : FormTable) (forms : List String) :
    Prop where
  /-- The entries say what the analyses of their forms say. -/
  sound : Sound analyze table
  /-- The forms with entries are those of the tokens. -/
  isSome_iff : ∀ form, table.entries[form]?.isSome ↔ form ∈ forms
  /-- Every token has the span of its form. -/
  tokenSpans : table.tokenSpans.toList.map some = forms.map table.span?
  /-- The first record is the reserved one. -/
  reserved : table.records[0]? = some 0
  /-- Behind it lie the records of the forms in the order in which they first came. -/
  tiles : Tiles table.records.size 1
    ((forms.eraseDups.filterMap table.filledSpan?).map (·.range))
  /-- Every span can be written. -/
  fits : ∀ form span, table.span? form = some span → span.Fits
  /-- All forms without records have the same span. -/
  empty_span : ∀ form span, table.span? form = some span → span.length = 0 → span = .empty

namespace Accounts

variable {forms : List String}

theorem empty : Accounts analyze .empty [] where
  sound := sound_empty
  isSome_iff form := by
    rw [FormTable.empty, Std.HashMap.getElem?_empty]
    simp
  tokenSpans := rfl
  reserved := rfl
  tiles := rfl
  fits form span hspan := by
    rw [span?, FormTable.empty, Std.HashMap.getElem?_empty] at hspan
    cases hspan
  empty_span form span hspan := by
    rw [span?, FormTable.empty, Std.HashMap.getElem?_empty] at hspan
    cases hspan

/-- One more token of a form that has come before. -/
theorem addToken (h : table.Accounts analyze forms) {form : String} {entry : FormEntry}
    (hentry : table.entries[form]? = some entry) :
    (table.addToken entry).Accounts analyze (forms ++ [form]) := by
  have hmem : form ∈ forms := by
    rw [← h.isSome_iff, hentry]
    rfl
  refine ⟨fun other found hfound => (h.sound other found hfound).addToken entry, fun other => ?_,
    ?_, h.reserved, ?_, h.fits, h.empty_span⟩
  · show table.entries[other]?.isSome ↔ _
    rw [h.isSome_iff, List.mem_append, List.mem_singleton]
    exact ⟨.inl, fun hother => hother.elim id fun heq => heq ▸ hmem⟩
  · show (table.tokenSpans.push entry.span).toList.map some = (forms ++ [form]).map table.span?
    rw [Array.toList_push, List.map_append, List.map_append, h.tokenSpans, List.map_singleton,
      List.map_singleton, span?, hentry, Option.map_some]
  · have hsame : (forms ++ [form]).eraseDups = forms.eraseDups := by
      simp [List.eraseDups_append, List.removeAll, hmem]
    rw [hsame]
    exact h.tiles

/-- The first token of a form. The forms before it keep their spans, and its records, if it has any,
lie behind theirs. -/
theorem allot (h : table.Accounts analyze forms) {form : String} {entry : FormEntry}
    (hnew : table.entries[form]? = none)
    (hallot : table.allot form (analyze form) = .ok (grown, entry))
    (hsound : Sound analyze (grown.addToken entry)) :
    (grown.addToken entry).Accounts analyze (forms ++ [form]) := by
  obtain ⟨⟨more, hmore⟩, -, htokens, -⟩ := allot_eq_ok hallot
  have hnot : form ∉ forms := by
    rw [← h.isSome_iff, hnew]
    exact Bool.false_ne_true
  have hne : ∀ {other}, other ∈ forms → other ≠ form := fun hother heq => hnot (heq ▸ hother)
  have hself : grown.span? form = some entry.span := by
    rw [span?, getElem?_of_allot hallot, Option.map_some]
  refine ⟨hsound, fun other => ?_, ?_, ?_, ?_, fun other span hother => ?_,
    fun other span hother hzero => ?_⟩
  · show grown.entries[other]?.isSome ↔ _
    rw [List.mem_append, List.mem_singleton]
    by_cases heq : other = form
    · rw [heq, getElem?_of_allot hallot]
      simp
    · rw [getElem?_of_allot_of_ne hallot heq, h.isSome_iff]
      simp [heq]
  · show (grown.tokenSpans.push entry.span).toList.map some = (forms ++ [form]).map grown.span?
    rw [Array.toList_push, List.map_append, List.map_append, htokens, h.tokenSpans,
      List.map_singleton, List.map_singleton, hself]
    congr 1
    exact List.map_congr_left fun other hother => (span?_of_allot_of_ne hallot (hne hother)).symm
  · show grown.records[0]? = _
    have hreserved := h.reserved
    rw [← Array.getElem?_toList] at hreserved ⊢
    rw [hmore, Array.toList_appendList, List.getElem?_append_left, hreserved]
    exact (List.getElem?_eq_some_iff.mp hreserved).1
  · show Tiles grown.records.size 1
      (((forms ++ [form]).eraseDups.filterMap grown.filledSpan?).map (·.range))
    have horder : (forms ++ [form]).eraseDups = forms.eraseDups ++ [form] := by
      simp [List.eraseDups_append, List.removeAll, hnot, List.eraseDups_cons]
    have hbefore : forms.eraseDups.filterMap grown.filledSpan?
        = forms.eraseDups.filterMap table.filledSpan? := by
      refine List.filterMap_congr fun other hother => ?_
      rw [filledSpan?, span?_of_allot_of_ne hallot (hne (List.mem_eraseDups.mp hother)),
        filledSpan?]
    have hlast : [form].filterMap grown.filledSpan? = (grown.filledSpan? form).toList := by
      cases hfilled : grown.filledSpan? form <;> simp [hfilled]
    rw [horder, List.filterMap_append, hbefore, hlast]
    exact tiles_of_allot hallot h.tiles
  · have hother : grown.span? other = some span := hother
    by_cases heq : other = form
    · rw [heq, hself] at hother
      cases hother
      exact fits_of_allot hallot
    · rw [span?_of_allot_of_ne hallot heq] at hother
      exact h.fits other span hother
  · have hother : grown.span? other = some span := hother
    by_cases heq : other = form
    · rw [heq, hself] at hother
      cases hother
      exact span_eq_empty_of_allot hallot hzero
    · rw [span?_of_allot_of_ne hallot heq] at hother
      exact h.empty_span other span hother hzero

/-- One more token of any form. -/
theorem add (h : table.Accounts analyze forms) {form : String} {entry : FormEntry}
    (hadd : table.add analyze form = .ok (grown, entry)) :
    grown.Accounts analyze (forms ++ [form]) ∧ grown.entries[form]? = some entry := by
  have hsound := (h.sound.add hadd).1
  rcases add_eq_ok hadd with ⟨hentry, rfl⟩ | ⟨hnew, made, hallot, rfl⟩
  · exact ⟨h.addToken hentry, hentry⟩
  · have hentry : made.entries[form]? = some entry := getElem?_of_allot hallot
    exact ⟨h.allot hnew hallot hsound, hentry⟩

/-! ### What the layout is good for -/

/-- A form with a span is among those of the tokens. -/
theorem mem_forms (h : table.Accounts analyze forms) {form : String} {span : RecordSpan}
    (hspan : table.span? form = some span) : form ∈ forms := by
  rw [← h.isSome_iff, ← Option.isSome_map, ← span?, hspan]
  rfl

/-- A span with records lies between the reserved record and the end of the buffer. -/
theorem bounds (h : table.Accounts analyze forms) {form : String} {span : RecordSpan}
    (hspan : table.span? form = some span) (hne : span.length ≠ 0) :
    1 ≤ span.range.1 ∧ span.range.1 ≤ span.range.2 ∧ span.range.2 ≤ table.records.size := by
  refine h.tiles.bounds (List.mem_map_of_mem (List.mem_filterMap.mpr
    ⟨form, List.mem_eraseDups.mpr (h.mem_forms hspan), ?_⟩))
  rw [filledSpan?, hspan, Option.filter_some, if_pos (decide_eq_true hne)]

/-- Two forms have no records in common. -/
theorem disjoint (h : table.Accounts analyze forms) {form other : String}
    {span otherSpan : RecordSpan} (hspan : table.span? form = some span)
    (hother : table.span? other = some otherSpan)
    (hne : form ≠ other) (hfilled : span.length ≠ 0) (hotherFilled : otherSpan.length ≠ 0) :
    span.Disjoint otherSpan := by
  have hordered := List.pairwise_filterMap.mp (List.pairwise_map.mp h.tiles.pairwise)
  -- whichever of the two comes first in the order, its records lie before those of the other
  have hpairwise : forms.eraseDups.Pairwise fun first second =>
      ∀ span, table.filledSpan? first = some span →
        ∀ other, table.filledSpan? second = some other → span.Disjoint other :=
    hordered.imp fun hpair span hspan other hother => .inl (hpair span hspan other hother)
  have hsymm : Std.Symm fun first second => ∀ span, table.filledSpan? first = some span →
      ∀ other, table.filledSpan? second = some other → span.Disjoint other :=
    ⟨fun first second hpair span hspan other hother => (hpair other hother span hspan).symm⟩
  refine hpairwise.forall (List.mem_eraseDups.mpr (h.mem_forms hspan))
    (List.mem_eraseDups.mpr (h.mem_forms hother)) hne span ?_ otherSpan ?_
  · rw [filledSpan?, hspan, Option.filter_some, if_pos (decide_eq_true hfilled)]
  · rw [filledSpan?, hother, Option.filter_some, if_pos (decide_eq_true hotherFilled)]

/-- The span of a form leads to the records of its analyses, unless there is none but the zero
record, which is not kept. -/
theorem recordsAt_eq (h : table.Accounts analyze forms) {form : String} {entry : FormEntry}
    (hentry : table.entries[form]? = some entry) :
    let records : List Record := ascending ((analyze form).flatMap Analysis.records)
    if records = [] ∨ records = [0] then entry.span = .empty
    else table.recordsAt? entry.span = some records := by
  have hrecords := (h.sound form entry hentry).recordsAt_eq
  unfold keptRecords at hrecords
  simp only at hrecords ⊢
  split
  case isTrue hnone =>
    rw [if_pos hnone] at hrecords
    obtain ⟨-, -, -, -, hlength⟩ := recordsAt?_eq_some_iff.mp hrecords
    refine h.empty_span form entry.span ?_ ?_
    · rw [span?, hentry, Option.map_some]
    · rw [← UInt32.toNat_inj, ← hlength, List.length_nil, UInt32.toNat_zero]
  case isFalse hsome =>
    rw [if_neg hsome] at hrecords
    exact hrecords

/-- Every token has the span of a form. -/
theorem exists_form (h : table.Accounts analyze forms) {span : RecordSpan}
    (hspan : span ∈ table.tokenSpans.toList) : ∃ form, table.span? form = some span := by
  have hmem : some span ∈ table.tokenSpans.toList.map some := List.mem_map_of_mem hspan
  rw [h.tokenSpans, List.mem_map] at hmem
  obtain ⟨form, -, hform⟩ := hmem
  exact ⟨form, hform⟩

/-- The spans of all tokens can be written, and their words read back as the spans. -/
theorem exists_spanTable (h : table.Accounts analyze forms) :
    ∃ words, table.spanTable = .ok words
      ∧ words.map RecordSpan.unpack = table.tokenSpans.toList := by
  have hpack : ∀ span ∈ table.tokenSpans.toList, ∃ word, span.pack = .ok word
      ∧ RecordSpan.unpack word = span := fun span hspan => by
    obtain ⟨form, hform⟩ := h.exists_form hspan
    obtain ⟨hoffset, hlength⟩ := h.fits form span hform
    exact RecordSpan.exists_pack hoffset hlength
  unfold spanTable
  generalize table.tokenSpans.toList = spans at hpack
  induction spans with
  | nil => exact ⟨[], rfl, rfl⟩
  | cons span spans ih =>
    obtain ⟨word, hword, hback⟩ := hpack span List.mem_cons_self
    obtain ⟨words, hwords, hbacks⟩ := ih fun other hother => hpack other
      (List.mem_cons_of_mem _ hother)
    refine ⟨word :: words, ?_, ?_⟩
    · rw [List.mapM_cons]
      exact bind_eq_ok.mpr ⟨word, hword, bind_eq_ok.mpr ⟨words, hwords, rfl⟩⟩
    · rw [List.map_cons, hback, hbacks]

/-- There is a span for each token. -/
theorem size_tokenSpans (h : table.Accounts analyze forms) :
    table.tokenSpans.size = forms.length := by
  have hlength := congrArg List.length h.tokenSpans
  rwa [List.length_map, List.length_map, Array.length_toList] at hlength

/-- The records of a token lie in the buffer. -/
theorem stop_le (h : table.Accounts analyze forms) {span : RecordSpan}
    (hspan : span ∈ table.tokenSpans.toList) :
    span.offset.toNat + span.length.toNat ≤ table.records.size := by
  obtain ⟨form, hform⟩ := h.exists_form hspan
  by_cases hzero : span.length = 0
  · rw [h.empty_span form span hform hzero]
    exact Nat.zero_le _
  · exact (h.bounds hform hzero).2.2

end Accounts

end FormTable

end Concordance
