import Concordance.Audit.Basic
import Concordance.Proofs.Except
import Mathlib.Data.List.Basic

/-!
# What an audit shows

The checks of an audit are computed from five files. They are passed exactly if what is read from
the files fits together (`Audit.passes_iff`): the places ascend within the text, there are two of
them and one span for every token, the spans lie within the records behind the reserved one, and the
summary counts as many tokens.

- `Readings`: what the artifacts of a corpus are read as.
- `Readings.Coherent`: what was read fits together.
-/

namespace Concordance

/-- What artifacts are read as. -/
structure Readings where
  /-- The text. -/
  text : String
  /-- The places of tokens and breaks by turns. -/
  starts : List UInt32
  /-- The records of all forms. -/
  records : List UInt32
  /-- The words of the spans of the tokens' records. -/
  spans : List UInt32
  /-- The summary. -/
  summary : Json

/-- The bytes of artifacts are read so. -/
structure Readings.Of (reading : Readings) (files : Artifact → ByteArray) : Prop where
  text : String.fromUTF8? (files .text) = some reading.text
  starts : Audit.wordsOf (files .tokenStarts) = .ok reading.starts
  records : Audit.wordsOf (files .records) = .ok reading.records
  spans : Audit.wordsOf (files .recordSpans) = .ok reading.spans
  summary : Audit.jsonOf (files .summary) = .ok reading.summary

/-- What was read fits together, for a number of tokens. -/
structure Readings.Coherent (reading : Readings) (tokenCount : Nat) : Prop where
  /-- Every token has a place and a place of its break. -/
  length_starts : reading.starts.length = 2 * tokenCount
  /-- The places ascend. -/
  ascending : reading.starts.Pairwise (· ≤ ·)
  /-- They are not beyond the text. -/
  within : ∀ place ∈ reading.starts, place.toNat ≤ reading.text.utf8ByteSize
  /-- Every token has a span. -/
  length_spans : reading.spans.length = tokenCount
  /-- The first record is the reserved one. -/
  reserved : reading.records.head? = some 0
  /-- Every span lies within the records. -/
  stop_le : ∀ word ∈ reading.spans, (RecordSpan.unpack word).offset.toNat
    + (RecordSpan.unpack word).length.toNat ≤ reading.records.length
  /-- The summary counts the tokens. -/
  counted : (reading.summary.get? "numTokens").bind Json.natural? = some tokenCount

namespace Audit

/-! ## The checks -/

theorem neverFalls_iff_pairwise (numbers : List UInt32) :
    neverFalls numbers = true ↔ numbers.Pairwise (· ≤ ·) := by
  induction numbers with
  | nil => simp [neverFalls]
  | cons first later ih =>
    cases later with
    | nil => simp [neverFalls]
    | cons second later =>
      rw [neverFalls, Bool.and_eq_true, decide_eq_true_eq, ih]
      constructor
      · rintro ⟨hle, hlater⟩
        refine List.pairwise_cons.mpr ⟨List.forall_mem_cons.mpr ⟨hle, ?_⟩, hlater⟩
        intro number hnumber
        exact UInt32.le_trans hle ((List.pairwise_cons.mp hlater).1 number hnumber)
      · intro hall
        obtain ⟨hfirst, hlater⟩ := List.pairwise_cons.mp hall
        exact ⟨hfirst second List.mem_cons_self, hlater⟩

/-- If the last of ascending numbers is within a bound, so are all. -/
theorem getLast?_all_iff {numbers : List UInt32} (h : numbers.Pairwise (· ≤ ·)) (bound : Nat) :
    numbers.getLast?.all (·.toNat ≤ bound) = true ↔ ∀ number ∈ numbers, number.toNat ≤ bound := by
  rcases List.eq_nil_or_concat' numbers with rfl | ⟨before, last, rfl⟩
  · simp
  · rw [List.getLast?_concat, Option.all_some, decide_eq_true_eq]
    constructor
    · intro hlast number hnumber
      rcases List.mem_append.mp hnumber with hbefore | hmem
      · have hle := (List.pairwise_append.mp h).2.2 number hbefore last List.mem_cons_self
        exact Nat.le_trans (UInt32.le_iff_toNat_le.mp hle) hlast
      · rw [List.mem_singleton.mp hmem]
        exact hlast
    · intro hall
      exact hall last (by simp)

/-- All checks hold exactly if what was read fits together. -/
theorem checks_hold_iff (reading : Readings) (tokenCount : Nat) :
    ((checksOf reading.text.utf8ByteSize reading.starts reading.records reading.spans
        reading.summary).all (·.holds) = true ∧ reading.starts.length / 2 = tokenCount)
      ↔ reading.Coherent tokenCount := by
  unfold checksOf
  simp only [List.all_cons, List.all_nil, Bool.and_true, Bool.and_eq_true, beq_iff_eq,
    List.all_eq_true, neverFalls_iff_pairwise]
  constructor
  · rintro ⟨⟨hpairs, ⟨hascending, hlast⟩, hspans, hreserved, hfits, hcounted⟩, rfl⟩
    exact ⟨by omega, hascending, (getLast?_all_iff hascending _).mp hlast, hspans, hreserved,
      fun word hword => of_decide_eq_true (hfits word hword), hcounted⟩
  · intro h
    have hhalf : reading.starts.length / 2 = tokenCount := by
      rw [h.length_starts, Nat.mul_div_cancel_left _ (by decide)]
    rw [hhalf]
    refine ⟨⟨?_, ⟨h.ascending, (getLast?_all_iff h.ascending _).mpr h.within⟩, h.length_spans,
      h.reserved, ?_, h.counted⟩, rfl⟩
    · rw [h.length_starts, Nat.mul_mod_right]
    · intro word hword
      exact decide_eq_true (h.stop_le word hword)

/-! ## The audit -/

variable {files : Artifact → ByteArray}

/-- There is an audit exactly of files that can be read. -/
theorem ofFiles_eq_ok {audit : Audit} : ofFiles files = .ok audit ↔ ∃ reading : Readings,
    reading.Of files ∧ audit = {
      files := Artifact.all.map (factsOf files)
      tokenCount := reading.starts.length / 2
      checks := checksOf reading.text.utf8ByteSize reading.starts reading.records reading.spans
        reading.summary
      summary := reading.summary } := by
  unfold ofFiles
  constructor
  · intro h
    cases htext : String.fromUTF8? (files .text) with
    | none =>
      rw [htext] at h
      cases h
    | some text =>
      simp only [htext, pure_bind] at h
      obtain ⟨starts, hstarts, h⟩ := bind_eq_ok.mp h
      obtain ⟨records, hrecords, h⟩ := bind_eq_ok.mp h
      obtain ⟨spans, hspans, h⟩ := bind_eq_ok.mp h
      obtain ⟨summary, hsummary, h⟩ := bind_eq_ok.mp h
      cases h
      exact ⟨⟨text, starts, records, spans, summary⟩,
        ⟨htext, hstarts, hrecords, hspans, hsummary⟩, rfl⟩
  · rintro ⟨reading, hreading, rfl⟩
    simp only [hreading.text, hreading.starts, hreading.records, hreading.spans, hreading.summary]
    rfl

/-- An audit is passed exactly by files that are read as something that fits together. -/
theorem passes_iff {tokenCount : Nat} :
    (∃ audit, ofFiles files = .ok audit ∧ audit.isConsistent = true
      ∧ audit.tokenCount = tokenCount)
      ↔ ∃ reading : Readings, reading.Of files ∧ reading.Coherent tokenCount := by
  constructor
  · rintro ⟨audit, haudit, hconsistent, htokens⟩
    obtain ⟨reading, hreading, rfl⟩ := ofFiles_eq_ok.mp haudit
    exact ⟨reading, hreading, (checks_hold_iff reading tokenCount).mp ⟨hconsistent, htokens⟩⟩
  · rintro ⟨reading, hreading, hcoherent⟩
    obtain ⟨hconsistent, htokens⟩ := (checks_hold_iff reading tokenCount).mpr hcoherent
    exact ⟨_, ofFiles_eq_ok.mpr ⟨reading, hreading, rfl⟩, hconsistent, htokens⟩

/-- Every audit makes six checks. -/
theorem length_checks {audit : Audit} (h : ofFiles files = .ok audit) :
    audit.checks.length = 6 := by
  obtain ⟨reading, -, rfl⟩ := ofFiles_eq_ok.mp h
  rfl

end Audit

end Concordance
