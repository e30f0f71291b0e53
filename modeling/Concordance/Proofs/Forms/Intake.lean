import Concordance.Proofs.Forms.Layout
import Concordance.Proofs.Grammar.Combinations

/-!
# Forms that come one after the other

A table is filled by calls, one for each token, and a call may fail. Whatever the calls are, the
table accounts for the forms that were taken, and the analyses of each of these were asked for once,
however often it came (`FormTable.forms_laid_out_once`).

- `FormTable.noting`: analyses that are noted when they are asked for.
- `FormTable.Intake`: a table with the history of its calls. A failed call leaves the table as it
  is.
- `FormTable.Intake.Keeps`: what every call keeps (`FormTable.Intake.Keeps.offer`).
- `FormTable.Intake.succeeds_iff`: a call succeeds if its form was taken before or its records fit.
-/

namespace Concordance.FormTable

/-- The analyses of a form, with a note that they were asked for. -/
def noting (analyze : String → List Analysis) (form : String) :
    StateM (List String) (List Analysis) := do
  modify (· ++ [form])
  return analyze form

/-- Noting does not change what a call does. A note is made exactly if the form has no entry. -/
theorem run_addWith_noting (analyze : String → List Analysis) (table : FormTable) (form : String)
    (asked : List String) :
    (table.addWith (noting analyze) form).run asked
      = (table.add analyze form,
        if table.entries[form]?.isSome then asked else asked ++ [form]) := by
  rw [add_eq]
  unfold addWith
  cases table.entries[form]? with
  | some entry => rfl
  | none => rfl

/-- A note about one form says nothing about others. -/
theorem count_note_of_ne (asked : List String) {form other : String} (hne : other ≠ form) :
    (asked ++ [form]).count other = asked.count other := by
  rw [List.count_append, List.count_singleton, if_neg (by simpa using hne.symm), Nat.add_zero]

/-- A table with the history of its calls. -/
structure Intake where
  /-- The table as the calls have left it. -/
  table : FormTable
  /-- The form of each call and what the call gave. -/
  outcomes : List (String × Except BuildError FormEntry)
  /-- The forms whose analyses were asked for, as often as they were. -/
  asked : List String

namespace Intake

/-- A new table. -/
def empty : Intake := ⟨.empty, [], []⟩

/-- The forms that were taken, one for each token, with the entries that the calls gave. -/
def taken (intake : Intake) : List (String × FormEntry) :=
  intake.outcomes.filterMap fun (form, outcome) => outcome.toOption.map (form, ·)

/-- One more call. -/
def offer (analyze : String → List Analysis) (intake : Intake) (form : String) : Intake :=
  match (intake.table.addWith (noting analyze) form).run intake.asked with
  | (.ok (table, entry), asked) => ⟨table, intake.outcomes ++ [(form, .ok entry)], asked⟩
  | (.error failure, asked) => ⟨intake.table, intake.outcomes ++ [(form, .error failure)], asked⟩

/-- Calls on a new table. -/
def ofCalls (analyze : String → List Analysis) (calls : List String) : Intake :=
  calls.foldl (offer analyze) empty

variable {analyze : String → List Analysis} {intake : Intake}

/-- What one more call does. -/
theorem offer_eq (analyze : String → List Analysis) (intake : Intake) (form : String) :
    intake.offer analyze form =
      let asked := if intake.table.entries[form]?.isSome then intake.asked
        else intake.asked ++ [form]
      match intake.table.add analyze form with
      | .ok (table, entry) => ⟨table, intake.outcomes ++ [(form, .ok entry)], asked⟩
      | .error failure =>
        ⟨intake.table, intake.outcomes ++ [(form, .error failure)], asked⟩ := by
  rw [offer, run_addWith_noting]
  cases intake.table.add analyze form with
  | ok result => rfl
  | error failure => rfl

/-- A call that succeeds takes its form. -/
theorem taken_offer {form : String} {grown : FormTable} {entry : FormEntry}
    (hadd : intake.table.add analyze form = .ok (grown, entry)) :
    (intake.offer analyze form).taken = intake.taken ++ [(form, entry)] := by
  rw [offer_eq, hadd, taken, List.filterMap_append]
  rfl

/-- The history has every call. -/
theorem map_fst_outcomes (analyze : String → List Analysis) (calls : List String) :
    (ofCalls analyze calls).outcomes.map (·.1) = calls := by
  have hoffer : ∀ (intake : Intake) (form : String),
      (intake.offer analyze form).outcomes.map (·.1) = intake.outcomes.map (·.1) ++ [form] := by
    intro intake form
    rw [offer_eq]
    cases intake.table.add analyze form <;> exact List.map_append
  have hfold : ∀ intake : Intake, (calls.foldl (offer analyze) intake).outcomes.map (·.1)
      = intake.outcomes.map (·.1) ++ calls := by
    induction calls with
    | nil => exact fun intake => (List.append_nil _).symm
    | cons form calls ih =>
      intro intake
      rw [List.foldl_cons, ih, hoffer, List.append_assoc, List.singleton_append]
  exact hfold empty

/-- What every call keeps. -/
structure Keeps (analyze : String → List Analysis) (intake : Intake) : Prop where
  /-- The table accounts for the forms that were taken. -/
  accounts : intake.table.Accounts analyze (intake.taken.map (·.1))
  /-- The entry that a call gave is the entry of its form. -/
  entries_eq : ∀ form entry, (form, entry) ∈ intake.taken → intake.table.entries[form]? = some entry
  /-- The analyses of a form that was taken were asked for once. -/
  count_known : ∀ form, intake.table.entries[form]?.isSome → intake.asked.count form = 1
  /-- Those of another form were not asked for, or there is no room for its records. -/
  count_unknown : ∀ form, intake.table.entries[form]? = none →
    intake.asked.count form = 0 ∨ ¬intake.table.Fits (analyze form)

namespace Keeps

theorem empty : Intake.empty.Keeps analyze where
  accounts := Accounts.empty
  entries_eq _ _ hmem := absurd hmem List.not_mem_nil
  count_known form hform := by
    have haccounts : FormTable.empty.Accounts analyze [] := Accounts.empty
    exact absurd ((haccounts.isSome_iff form).mp hform) List.not_mem_nil
  count_unknown _ _ := .inl rfl

/-- A call that fails. -/
theorem refused (h : intake.Keeps analyze) {form : String} {failure : BuildError}
    (hadd : intake.table.add analyze form = .error failure) :
    (intake.offer analyze form).Keeps analyze := by
  obtain ⟨hnew, hfull⟩ := add_eq_error hadd
  have hoffer : intake.offer analyze form
      = ⟨intake.table, intake.outcomes ++ [(form, .error failure)], intake.asked ++ [form]⟩ := by
    rw [offer_eq, hadd, hnew]
    rfl
  have htaken : (intake.offer analyze form).taken = intake.taken := by
    rw [hoffer, taken, List.filterMap_append]
    exact List.append_nil _
  refine ⟨?_, ?_, ?_, ?_⟩
  · rw [htaken, hoffer]
    exact h.accounts
  · rw [htaken, hoffer]
    exact h.entries_eq
  · rw [hoffer]
    intro other hother
    have hne : other ≠ form := by
      rintro rfl
      rw [hnew] at hother
      cases hother
    exact (count_note_of_ne _ hne).trans (h.count_known other hother)
  · rw [hoffer]
    intro other hother
    by_cases heq : other = form
    · exact .inr (heq ▸ hfull)
    · exact (h.count_unknown other hother).imp_left (count_note_of_ne _ heq).trans

/-- A call for a form that the table knows. Nothing is asked for. -/
theorem known (h : intake.Keeps analyze) {form : String} {entry : FormEntry}
    (hentry : intake.table.entries[form]? = some entry) :
    (intake.offer analyze form).Keeps analyze := by
  have hadd : intake.table.add analyze form = .ok (intake.table.addToken entry, entry) := by
    rw [add_eq, hentry]
  have hoffer : intake.offer analyze form = ⟨intake.table.addToken entry,
      intake.outcomes ++ [(form, .ok entry)], intake.asked⟩ := by
    rw [offer_eq, hadd, hentry]
    rfl
  refine ⟨?_, ?_, ?_, ?_⟩
  · rw [taken_offer hadd, hoffer, List.map_append]
    exact (h.accounts.add hadd).1
  · rw [taken_offer hadd, hoffer]
    intro other found hmem
    rcases List.mem_append.mp hmem with hbefore | hlast
    · exact h.entries_eq other found hbefore
    · cases List.mem_singleton.mp hlast
      exact hentry
  · rw [hoffer]
    exact h.count_known
  · rw [hoffer]
    exact h.count_unknown

/-- The first call for a form that is taken. The analyses of the form were not asked for before,
because a form that was refused would be refused again. -/
theorem new (h : intake.Keeps analyze) {form : String} {made : FormTable} {entry : FormEntry}
    (hnew : intake.table.entries[form]? = none)
    (hallot : intake.table.allot form (analyze form) = .ok (made, entry)) :
    (intake.offer analyze form).Keeps analyze := by
  have hadd : intake.table.add analyze form = .ok (made.addToken entry, entry) := by
    rw [add_eq, hnew]
    exact map_eq_ok.mpr ⟨(made, entry), hallot, rfl⟩
  have hoffer : intake.offer analyze form = ⟨made.addToken entry,
      intake.outcomes ++ [(form, .ok entry)], intake.asked ++ [form]⟩ := by
    rw [offer_eq, hadd, hnew]
    rfl
  obtain ⟨haccounts, hself⟩ := h.accounts.add hadd
  have hsame : ∀ {other}, other ≠ form → (made.addToken entry).entries[other]?
      = intake.table.entries[other]? := by
    intro other hne
    show made.entries[other]? = _
    exact getElem?_of_allot_of_ne hallot hne
  have hfirst : intake.asked.count form = 0 := by
    have hfits := (exists_allot_iff intake.table form (analyze form)).mp ⟨_, hallot⟩
    exact (h.count_unknown form hnew).resolve_right (not_not_intro hfits)
  refine ⟨?_, ?_, ?_, ?_⟩
  · rw [taken_offer hadd, hoffer, List.map_append]
    exact haccounts
  · rw [taken_offer hadd, hoffer]
    intro other found hmem
    rcases List.mem_append.mp hmem with hbefore | hlast
    · have hfound := h.entries_eq other found hbefore
      have hne : other ≠ form := by
        rintro rfl
        rw [hnew] at hfound
        cases hfound
      exact (hsame hne).trans hfound
    · cases List.mem_singleton.mp hlast
      exact hself
  · rw [hoffer]
    intro other hother
    by_cases heq : other = form
    · rw [heq, List.count_append, hfirst, List.count_singleton_self]
    · rw [count_note_of_ne _ heq]
      exact h.count_known other (hsame heq ▸ hother)
  · rw [hoffer]
    intro other hother
    have hne : other ≠ form := by
      rintro rfl
      rw [hself] at hother
      cases hother
    rw [hsame hne] at hother
    rw [count_note_of_ne _ hne]
    refine (h.count_unknown other hother).imp_right ?_
    intro hfull hfits
    have hroom : made.Fits (analyze other) := hfits
    exact hfull (hroom.of_size_le (size_le_of_allot hallot))

/-- One more call. -/
theorem offer (h : intake.Keeps analyze) (form : String) :
    (intake.offer analyze form).Keeps analyze := by
  cases hadd : intake.table.add analyze form with
  | ok result =>
    rcases add_eq_ok hadd with ⟨hentry, -⟩ | ⟨hnew, made, hallot, -⟩
    · exact h.known hentry
    · exact h.new hnew hallot
  | error failure => exact h.refused hadd

/-- Whatever the calls are. -/
theorem ofCalls (analyze : String → List Analysis) (calls : List String) :
    (Intake.ofCalls analyze calls).Keeps analyze := by
  have hfold : ∀ intake : Intake, intake.Keeps analyze →
      (calls.foldl (Intake.offer analyze) intake).Keeps analyze := by
    induction calls with
    | nil => exact fun intake h => h
    | cons form calls ih => exact fun intake h => ih _ (h.offer form)
  exact hfold _ empty

/-- Every token has the span that the call for it gave. -/
theorem tokenSpans_eq (h : intake.Keeps analyze) :
    intake.table.tokenSpans.toList = intake.taken.map (·.2.span) := by
  have hspans := h.accounts.tokenSpans
  have hentries : (intake.taken.map (·.1)).map intake.table.span?
      = (intake.taken.map (·.2.span)).map some := by
    rw [List.map_map, List.map_map]
    refine List.map_congr_left fun call hcall => ?_
    show intake.table.span? call.1 = some call.2.span
    rw [span?, h.entries_eq call.1 call.2 hcall, Option.map_some]
  rw [hentries] at hspans
  exact List.map_injective_iff.mpr (Option.some_injective _) hspans

end Keeps

/-- Later calls do not change the outcome of a call. -/
theorem outcomes_prefix (analyze : String → List Analysis) (intake : Intake) (calls : List String) :
    intake.outcomes <+: (calls.foldl (Intake.offer analyze) intake).outcomes := by
  induction calls generalizing intake with
  | nil => exact List.prefix_rfl
  | cons form calls ih =>
    rw [List.foldl_cons]
    refine List.IsPrefix.trans ?_ (ih _)
    rw [offer_eq]
    cases intake.table.add analyze form with
    | ok result => exact List.prefix_append _ _
    | error failure => exact List.prefix_append _ _

/-- The outcome of a call is that of its form on the table that the calls before it have left. -/
theorem getElem?_outcomes (analyze : String → List Analysis) (before : List String) (form : String)
    (later : List String) :
    (ofCalls analyze (before ++ form :: later)).outcomes[before.length]?
      = some (form, ((ofCalls analyze before).table.add analyze form).map (·.2)) := by
  have hlength : (ofCalls analyze before).outcomes.length = before.length := by
    rw [← List.length_map (·.1), map_fst_outcomes]
  have hnext : ((ofCalls analyze before).offer analyze form).outcomes
      = (ofCalls analyze before).outcomes
        ++ [(form, ((ofCalls analyze before).table.add analyze form).map (·.2))] := by
    rw [offer_eq]
    cases (ofCalls analyze before).table.add analyze form with
    | ok result => rfl
    | error failure => rfl
  obtain ⟨more, hmore⟩ :=
    outcomes_prefix analyze ((ofCalls analyze before).offer analyze form) later
  have hsplit : ofCalls analyze (before ++ form :: later)
      = later.foldl (offer analyze) ((ofCalls analyze before).offer analyze form) := by
    rw [ofCalls, List.foldl_append, List.foldl_cons, ofCalls]
  rw [hsplit, ← hmore, hnext, ← hlength, List.append_assoc,
    List.getElem?_append_right (Nat.le_refl _), Nat.sub_self]
  rfl

/-- A call succeeds exactly if its form was taken before, or there is room for its records. -/
theorem succeeds_iff (analyze : String → List Analysis) (before : List String) (form : String)
    (later : List String) :
    (∃ entry, (ofCalls analyze (before ++ form :: later)).outcomes[before.length]?
        = some (form, .ok entry))
      ↔ form ∈ (ofCalls analyze before).taken.map (·.1)
        ∨ (ofCalls analyze before).table.Fits (analyze form) := by
  have hkeeps : (ofCalls analyze before).Keeps analyze := Keeps.ofCalls analyze before
  rw [getElem?_outcomes, ← hkeeps.accounts.isSome_iff]
  cases hadd : (ofCalls analyze before).table.add analyze form with
  | ok result =>
    refine iff_of_true ⟨result.2, rfl⟩ ?_
    rcases add_eq_ok hadd with ⟨hentry, -⟩ | ⟨-, made, hallot, -⟩
    · exact .inl (Option.isSome_of_eq_some hentry)
    · exact .inr ((exists_allot_iff _ _ _).mp ⟨_, hallot⟩)
  | error failure =>
    obtain ⟨hnew, hfull⟩ := add_eq_error hadd
    refine iff_of_false ?_ ?_
    · rintro ⟨entry, hentry⟩
      cases hentry
    · rintro (hsome | hfits)
      · rw [hnew] at hsome
        cases hsome
      · exact hfull hfits

end Intake

/-- Whatever calls are made on a new table, failed ones among them, the table has a token for each
call that succeeded, with the span that this call gave, and a form has one span however often it
comes. The analyses of a form that was taken were asked for once. Its span leads to the records of
its analyses in ascending order, each once, or it is the empty span if there is none but the zero
record. The spans with records have none in common, and in the order in which their forms first came
they lie end to end from the reserved record to the end of the buffer. All spans can be written, and
are read back from their words. -/
theorem forms_laid_out_once (analyze : String → List Analysis) (calls : List String) :
    let intake := Intake.ofCalls analyze calls
    let table := intake.table
    intake.outcomes.map (·.1) = calls
      ∧ table.records[0]? = some 0
      ∧ table.tokenCount = intake.taken.length
      ∧ table.tokenSpans.toList = intake.taken.map (·.2.span)
      ∧ (∀ form entry, (form, entry) ∈ intake.taken →
        table.entries[form]? = some entry
          ∧ intake.asked.count form = 1
          ∧ (∃ records : List Record, records.Pairwise (· < ·)
            ∧ (∀ record, record ∈ records ↔ ∃ analysis ∈ analyze form, record ∈ analysis.records)
            ∧ if records = [] ∨ records = [0] then entry.span = .empty
              else table.recordsAt? entry.span = some records)
          ∧ (entry.span.length ≠ 0 → 1 ≤ entry.span.offset.toNat
            ∧ 1 ≤ entry.span.length.toNat ∧ entry.span.length.toNat ≤ 255))
      ∧ (∀ form entry other otherEntry, (form, entry) ∈ intake.taken →
        (other, otherEntry) ∈ intake.taken → form ≠ other → entry.span.length ≠ 0 →
        otherEntry.span.length ≠ 0 → entry.span.Disjoint otherEntry.span)
      ∧ Tiles table.records.size 1
        (((intake.taken.map (·.1)).eraseDups.filterMap table.filledSpan?).map (·.range))
      ∧ ∃ words, table.spanTable = .ok words
        ∧ words.map RecordSpan.unpack = table.tokenSpans.toList := by
  intro intake table
  have h : intake.Keeps analyze := Intake.Keeps.ofCalls analyze calls
  have hspan : ∀ {form entry}, (form, entry) ∈ intake.taken →
      table.span? form = some entry.span := by
    intro form entry hmem
    rw [span?, h.entries_eq form entry hmem, Option.map_some]
  refine ⟨Intake.map_fst_outcomes analyze calls, h.accounts.reserved, ?_, h.tokenSpans_eq,
    fun form entry hmem => ?_, ?_, h.accounts.tiles, h.accounts.exists_spanTable⟩
  · rw [tokenCount, ← Array.length_toList, h.tokenSpans_eq, List.length_map]
  · have hentry := h.entries_eq form entry hmem
    refine ⟨hentry, h.count_known form (Option.isSome_of_eq_some hentry),
      ⟨_, ascending_pairwise _, fun record => ?_, h.accounts.recordsAt_eq hentry⟩, fun hne => ?_⟩
    · rw [mem_ascending, List.mem_flatMap]
    · have hpos : entry.span.length.toNat ≠ 0 := fun hzero => hne (UInt32.toNat_inj.mp hzero)
      exact ⟨(h.accounts.bounds (hspan hmem) hne).1, Nat.pos_of_ne_zero hpos,
        Nat.le_of_lt_succ (h.accounts.fits form entry.span (hspan hmem)).2⟩
  · intro form entry other otherEntry hform hother hne
    exact h.accounts.disjoint (hspan hform) (hspan hother) hne

/-! ### A noun and a verb -/

/-- The analyses of a noun, and of a verb that leaves too much open. Other forms have none. -/
def nounAndVerb (form : String) : List Analysis :=
  if form = "terra" then [{ headword := "terra", number := some (.one .singular) }]
  else if form = "verbum" then [.openVerb]
  else []

/-- What the table knows about the noun. -/
def nounEntry : FormEntry := ⟨["terra"], ⟨1, 1⟩⟩

/-- The table with the noun. -/
def nounTable : FormTable :=
  ⟨#[0, 1], #[⟨1, 1⟩], Std.HashMap.insert ∅ "terra" nounEntry⟩

theorem add_noun : FormTable.empty.add nounAndVerb "terra" = .ok (nounTable, nounEntry) := by
  have hnew : FormTable.empty.entries["terra"]? = none := Std.HashMap.getElem?_empty
  rw [add_eq, hnew]
  cbv

/-- The records of the verb do not fit. -/
theorem add_verb :
    nounTable.add nounAndVerb "verbum" = .error (.lengthOverflow "verbum" 378) := by
  have hnew : nounTable.entries["verbum"]? = none := by
    rw [nounTable, Std.HashMap.getElem?_insert, if_neg (by decide), Std.HashMap.getElem?_empty]
  have hanalyses : (nounAndVerb "verbum").flatMap Analysis.records = Analysis.openVerb.records :=
    List.flatMap_singleton ..
  have hlength := Analysis.length_ascending_openVerb
  refine add_eq_error_iff.mpr ⟨hnew, allot_eq_error_iff.mpr ?_⟩
  rw [hanalyses]
  refine ⟨?_, ?_, ?_⟩
  · intro hnil
    rw [hnil] at hlength
    cases hlength
  · intro hzero
    rw [hzero] at hlength
    cases hlength
  · rw [if_neg (by decide), hlength]
    exact ⟨by decide, rfl⟩

/-- The noun is taken twice and analysed once. The verb between is refused, and a form of which
nothing is known is taken without records. -/
theorem forms_laid_out_once_refused :
    let intake := Intake.ofCalls nounAndVerb ["terra", "verbum", "terra", "et"]
    intake.outcomes.map (fun (form, outcome) => (form, outcome.map (·.span)))
        = [("terra", .ok ⟨1, 1⟩), ("verbum", .error (.lengthOverflow "verbum" 378)),
          ("terra", .ok ⟨1, 1⟩), ("et", .ok .empty)]
      ∧ intake.asked = ["terra", "verbum", "et"]
      ∧ intake.table.tokenCount = 3
      ∧ ∃ words, intake.table.spanTable = .ok words
        ∧ words.map RecordSpan.unpack = [⟨1, 1⟩, ⟨1, 1⟩, .empty] := by
  intro intake
  have hknown : nounTable.entries["terra"]? = some nounEntry := Std.HashMap.getElem?_insert_self
  have hunknown : ∀ form, form ≠ "terra" → nounTable.entries[form]? = none := by
    intro form hne
    rw [nounTable, Std.HashMap.getElem?_insert, if_neg (by simpa using hne.symm),
      Std.HashMap.getElem?_empty]
  have hfirst : Intake.empty.offer nounAndVerb "terra"
      = ⟨nounTable, [("terra", .ok nounEntry)], ["terra"]⟩ := by
    have hnew : FormTable.empty.entries["terra"]? = none := Std.HashMap.getElem?_empty
    rw [Intake.offer_eq, Intake.empty, add_noun, hnew]
    rfl
  have hrefused : ∀ outcomes asked, (Intake.mk nounTable outcomes asked).offer nounAndVerb "verbum"
      = ⟨nounTable, outcomes ++ [("verbum", .error (.lengthOverflow "verbum" 378))],
        asked ++ ["verbum"]⟩ := by
    intro outcomes asked
    rw [Intake.offer_eq, add_verb, hunknown "verbum" (by decide)]
    rfl
  have hagain : ∀ outcomes asked, (Intake.mk nounTable outcomes asked).offer nounAndVerb "terra"
      = ⟨nounTable.addToken nounEntry, outcomes ++ [("terra", .ok nounEntry)], asked⟩ := by
    intro outcomes asked
    rw [Intake.offer_eq, add_eq, hknown]
    rfl
  obtain ⟨last, hbare⟩ : ∃ last, (nounTable.addToken nounEntry).add nounAndVerb "et"
      = .ok (last, ⟨[], .empty⟩) := by
    have hnew : (nounTable.addToken nounEntry).entries["et"]? = none := hunknown "et" (by decide)
    have hanalyses : nounAndVerb "et" = [] := by decide
    have hallot : (nounTable.addToken nounEntry).allot "et" []
        = .ok ({ nounTable.addToken nounEntry with
            entries := (nounTable.addToken nounEntry).entries.insert "et" ⟨[], .empty⟩ },
          ⟨[], .empty⟩) := by
      unfold allot ascending
      simp only [List.map_nil, List.flatMap_nil, List.mergeSort_nil]
      rfl
    rw [add_eq, hnew, hanalyses]
    exact ⟨_, map_eq_ok.mpr ⟨_, hallot, rfl⟩⟩
  have hintake : intake = ⟨last, [("terra", .ok nounEntry),
      ("verbum", .error (.lengthOverflow "verbum" 378)), ("terra", .ok nounEntry),
      ("et", .ok ⟨[], .empty⟩)], ["terra", "verbum", "et"]⟩ := by
    have hnew : (nounTable.addToken nounEntry).entries["et"]? = none := hunknown "et" (by decide)
    show (((Intake.empty.offer nounAndVerb "terra").offer nounAndVerb "verbum").offer nounAndVerb
      "terra").offer nounAndVerb "et" = _
    rw [hfirst, hrefused, hagain, Intake.offer_eq, hbare, hnew]
    rfl
  obtain ⟨-, -, htokens, hspans, -, -, -, hwords⟩ :=
    forms_laid_out_once nounAndVerb ["terra", "verbum", "terra", "et"]
  have htaken : intake.taken.map (·.2.span) = [⟨1, 1⟩, ⟨1, 1⟩, .empty] := by
    rw [hintake]
    rfl
  refine ⟨by rw [hintake]; rfl, by rw [hintake], ?_, ?_⟩
  · rw [htokens, ← List.length_map (·.2.span)]
    exact congrArg List.length htaken
  · obtain ⟨words, hwritten, hread⟩ := hwords
    exact ⟨words, hwritten, hread.trans (hspans.trans htaken)⟩

end Concordance.FormTable
