import Concordance.Forms.Table
import Concordance.Proofs.Ascending

/-!
# What the table knows about a form

However often a form comes, and whatever comes between, its entry says what the analyses of the form
say: the headwords, and a span under which the table keeps the records (`FormTable.Describes`).

- `FormTable.keptRecords`: the records that the table keeps of analyses.
- `FormTable.Sound`: every entry describes its form. Taking one more token keeps the table sound
  (`FormTable.Sound.add`).
-/

namespace Concordance.FormTable

/-- The records that the table keeps of analyses. A form without grammatical values has none. -/
def keptRecords (analyses : List Analysis) : List Record :=
  let records : List Record := ascending (analyses.flatMap Analysis.records)
  if records = [] ∨ records = [0] then [] else records

/-- An entry says what analyses say. -/
structure Describes (table : FormTable) (entry : FormEntry) (analyses : List Analysis) : Prop where
  /-- The headwords are those of the analyses. -/
  headwords_eq : entry.headwords = ascending (analyses.map (·.headword))
  /-- The span leads to the records of the analyses. -/
  recordsAt_eq : table.recordsAt? entry.span = some (keptRecords analyses)

/-- Every entry of a table describes its form. -/
def Sound (analyze : String → List Analysis) (table : FormTable) : Prop :=
  ∀ form entry, table.entries[form]? = some entry → table.Describes entry (analyze form)

variable {analyze : String → List Analysis} {table : FormTable}

/-! ## Spans -/

/-- A span has the records that lie in the buffer between its offset and its end. -/
theorem recordsAt?_eq_some_iff {span : RecordSpan} {records : List Record} :
    table.recordsAt? span = some records ↔ ∃ before after : List Record,
      table.records.toList = before ++ records ++ after
        ∧ before.length = span.offset.toNat ∧ records.length = span.length.toNat := by
  have hextract : (table.records.extract span.offset.toNat
        (span.offset.toNat + span.length.toNat)).toList
      = (table.records.toList.drop span.offset.toNat).take span.length.toNat := by
    rw [Array.toList_extract, List.extract_eq_take_drop, Nat.add_sub_cancel_left]
  simp only [recordsAt?, hextract]
  constructor
  · intro h
    split at h
    case isFalse => cases h
    case isTrue hstop =>
      cases h
      refine ⟨table.records.toList.take span.offset.toNat,
        (table.records.toList.drop span.offset.toNat).drop span.length.toNat, ?_, ?_, ?_⟩
      · rw [List.append_assoc, List.take_append_drop, List.take_append_drop]
      · rw [List.length_take, Array.length_toList]
        omega
      · rw [List.length_take, List.length_drop, Array.length_toList]
        omega
  · rintro ⟨before, after, heq, hbefore, hlength⟩
    have hsize : table.records.size = before.length + records.length + after.length := by
      rw [← Array.length_toList, heq, List.length_append, List.length_append]
    rw [if_pos (by omega), heq, ← hbefore, ← hlength, List.append_assoc, List.drop_left,
      List.take_left]

/-- A span that lies inside the buffer still has its records when the buffer has grown. -/
theorem recordsAt?_append {grown : FormTable} {more : List Record} {span : RecordSpan}
    {records : List Record} (hgrown : grown.records = table.records ++ more)
    (h : table.recordsAt? span = some records) : grown.recordsAt? span = some records := by
  obtain ⟨before, after, heq, hbefore, hlength⟩ := recordsAt?_eq_some_iff.mp h
  refine recordsAt?_eq_some_iff.mpr ⟨before, after ++ more, ?_, hbefore, hlength⟩
  rw [hgrown, Array.toList_appendList, heq, List.append_assoc]

/-- The records that were put behind the buffer are found there. -/
theorem recordsAt?_behind {grown : FormTable} {records : List Record}
    (hgrown : grown.records = table.records ++ records)
    (hoffset : table.records.size < RecordSpan.offsetLimit)
    (hlength : records.length < RecordSpan.lengthLimit) :
    grown.recordsAt? ⟨UInt32.ofNat table.records.size, UInt32.ofNat records.length⟩
      = some records := by
  refine recordsAt?_eq_some_iff.mpr ⟨table.records.toList, [], ?_, ?_, ?_⟩
  · rw [hgrown, Array.toList_appendList, List.append_nil]
  · rw [Array.length_toList, UInt32.toNat_ofNat_of_lt' (Nat.lt_trans hoffset (by decide))]
  · rw [UInt32.toNat_ofNat_of_lt' (Nat.lt_trans hlength (by decide))]

/-- The empty span has no records. -/
theorem recordsAt?_empty (table : FormTable) : table.recordsAt? .empty = some [] :=
  recordsAt?_eq_some_iff.mpr ⟨[], table.records.toList, rfl, rfl, rfl⟩

/-! ## Entries -/

/-- What making an entry does: the buffer grows, if at all, at its end, the entry is stored under
its form, and it describes the form. -/
theorem allot_eq_ok {grown : FormTable} {form : String} {analyses : List Analysis}
    {entry : FormEntry} (h : table.allot form analyses = .ok (grown, entry)) :
    (∃ more : List Record, grown.records = table.records ++ more)
      ∧ grown.entries = table.entries.insert form entry
      ∧ grown.tokenSpans = table.tokenSpans
      ∧ grown.Describes entry analyses := by
  unfold allot at h
  simp only at h
  split at h
  case isTrue hnone =>
    cases h
    refine ⟨⟨[], Array.appendList_nil.symm⟩, rfl, rfl, rfl, ?_⟩
    rw [keptRecords, if_pos hnone]
    exact recordsAt?_empty _
  case isFalse hsome =>
    split at h
    case isTrue => cases h
    case isFalse hoffset =>
      split at h
      case isTrue => cases h
      case isFalse hlength =>
        cases h
        refine ⟨⟨_, rfl⟩, rfl, rfl, rfl, ?_⟩
        rw [keptRecords, if_neg hsome]
        exact recordsAt?_behind rfl (Nat.lt_of_not_le hoffset) (Nat.lt_of_not_le hlength)

/-- An entry still describes its form when the buffer has grown. -/
theorem Describes.of_append {grown : FormTable} {more : List Record} {entry : FormEntry}
    {analyses : List Analysis} (h : table.Describes entry analyses)
    (hgrown : grown.records = table.records ++ more) : grown.Describes entry analyses :=
  ⟨h.headwords_eq, recordsAt?_append hgrown h.recordsAt_eq⟩

/-- Taking a token moves no records. -/
theorem Describes.addToken {entry : FormEntry} {analyses : List Analysis}
    (h : table.Describes entry analyses) (token : FormEntry) :
    (table.addToken token).Describes entry analyses :=
  ⟨h.headwords_eq, h.recordsAt_eq⟩

/-- A token of a form that has an entry leaves the forms as they are; the first token of a form
makes the entry. -/
theorem add_eq (analyze : String → List Analysis) (table : FormTable) (form : String) :
    table.add analyze form =
      match table.entries[form]? with
      | some entry => .ok (table.addToken entry, entry)
      | none => (table.allot form (analyze form)).map fun (table, entry) =>
        (table.addToken entry, entry) := by
  unfold add addWith
  cases table.entries[form]? with
  | some entry => rfl
  | none => rfl

theorem sound_empty : Sound analyze empty := by
  intro form entry hentry
  rw [empty, Std.HashMap.getElem?_empty] at hentry
  cases hentry

/-- Taking one more token keeps every entry true of its form, and gives an entry that is true of the
token's form. -/
theorem Sound.add (h : Sound analyze table) {grown : FormTable} {form : String} {entry : FormEntry}
    (hadd : table.add analyze form = .ok (grown, entry)) :
    Sound analyze grown ∧ grown.Describes entry (analyze form) := by
  rw [add_eq] at hadd
  cases hknown : table.entries[form]? with
  | some known =>
    rw [hknown] at hadd
    -- a known form adds a token and nothing else
    cases hadd
    exact ⟨fun other found hfound => (h other found hfound).addToken entry,
      (h form entry hknown).addToken entry⟩
  | none =>
    rw [hknown] at hadd
    cases hallot : table.allot form (analyze form) with
    | error failure =>
      rw [hallot] at hadd
      cases hadd
    | ok made =>
      obtain ⟨made, new⟩ := made
      rw [hallot] at hadd
      cases hadd
      obtain ⟨⟨more, hmore⟩, hentries, _, hdescribes⟩ := allot_eq_ok hallot
      refine ⟨?_, hdescribes.addToken entry⟩
      -- the entries before keep their records, as the buffer only grows at its end
      intro other found hfound
      have hlookup : (table.entries.insert form entry)[other]? = some found := by
        rw [← hentries]
        exact hfound
      rw [Std.HashMap.getElem?_insert] at hlookup
      split at hlookup
      case isTrue hsame =>
        cases hlookup
        rw [← eq_of_beq hsame]
        exact hdescribes.addToken entry
      case isFalse => exact ((h other found hlookup).of_append hmore).addToken entry

end Concordance.FormTable
