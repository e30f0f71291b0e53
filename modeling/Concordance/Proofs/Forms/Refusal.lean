import Mathlib.Data.List.Sort
import Concordance.Forms.InPlace
import Concordance.Proofs.Forms.Layout
import Concordance.Proofs.Grammar.Combinations

/-!
# Calls that fail

A call in place checks before it changes anything: it gives and leaves what the call on a table
does, and where this fails, the table stays as it was (`FormTable.run_addInPlace`). So whatever is
asked of the table later, the answers are those that it would have given without the call
(`FormTable.failed_add_leaves_no_trace`).

- `FormTable.isSome_iff_of_serveAll`: after any requests, the forms with an entry are those of the
  tokens that were taken.
-/

namespace Concordance.FormTable

/-! ## One call -/

section

variable {m : Type → Type} [Monad m] [LawfulMonad m]

/-- What a call in place gives and what it leaves, when the call on a table gives a result. -/
def settle (table : FormTable) :
    Except BuildError (FormTable × FormEntry) → Except BuildError FormEntry × FormTable
  | .ok (grown, entry) => (.ok entry, grown)
  | .error failure => (.error failure, table)

theorem settle_fst_eq_error {table : FormTable}
    {result : Except BuildError (FormTable × FormEntry)} {failure : BuildError} :
    (table.settle result).1 = .error failure ↔ result = .error failure := by
  cases result with
  | ok grown => exact iff_of_false nofun nofun
  | error cause => exact (Except.error.injEq ..).to_iff.trans (Except.error.injEq ..).to_iff.symm

/-- Making an entry in place stores no entry. When it fails, nothing has changed. -/
theorem run_allotInPlace (analyze : String → m (List Analysis)) (table : FormTable)
    (form : String) :
    (allotInPlace analyze form).run.run table
      = (fun analyses => table.settle ((table.allot form analyses).map fun (made, entry) =>
          ({ made with entries := table.entries }, entry))) <$> analyze form := by
  rw [allotInPlace, run_run_bind, run_run_liftM, bind_map_left, ← bind_pure_comp]
  congr 1
  funext analyses
  unfold allot
  simp only
  split
  case isTrue => rfl
  case isFalse =>
    simp only [run_run_bind, run_run_get, pure_bind]
    split
    case isTrue =>
      simp only [run_run_bind, run_run_throw, pure_bind]
      rfl
    case isFalse =>
      split
      case isTrue =>
        simp only [run_run_bind, run_run_throw, pure_bind]
        rfl
      case isFalse =>
        simp only [run_run_bind, run_run_modify, pure_bind]
        rfl

theorem run_entryInPlace_known (analyze : String → m (List Analysis)) {table : FormTable}
    {form : String} {entry : FormEntry} (hentry : table.entries[form]? = some entry) :
    (entryInPlace analyze form).run.run table = pure (.ok entry, table) := by
  simp only [entryInPlace, run_run_bind, run_run_get, pure_bind, hentry]
  rfl

/-- The entry of a new form is stored when it has been made. -/
theorem run_entryInPlace_new (analyze : String → m (List Analysis)) {table : FormTable}
    {form : String} (hnew : table.entries[form]? = none) :
    (entryInPlace analyze form).run.run table
      = (fun analyses => table.settle (table.allot form analyses)) <$> analyze form := by
  simp only [entryInPlace, run_run_bind, run_run_get, pure_bind, hnew, run_allotInPlace,
    bind_map_left]
  rw [← bind_pure_comp]
  congr 1
  funext analyses
  cases hallot : table.allot form analyses with
  | error failure => rfl
  | ok result =>
    obtain ⟨made, entry⟩ := result
    simp only [Except.map, settle, run_run_modify, pure_bind]
    rw [← (allot_eq_ok hallot).2.1]
    rfl

/-- A call in place gives and leaves what a call on the table does. -/
theorem run_addInPlace (analyze : String → m (List Analysis)) (table : FormTable)
    (form : String) :
    (addInPlace analyze form).run.run table = table.settle <$> table.addWith analyze form := by
  rw [addInPlace, run_run_bind, addWith]
  cases hentry : table.entries[form]? with
  | some entry =>
    simp only [run_entryInPlace_known analyze hentry, run_run_bind, run_run_modify, pure_bind,
      map_pure]
    rfl
  | none =>
    simp only [run_entryInPlace_new analyze hentry, bind_map_left, map_bind, map_pure]
    congr 1
    funext analyses
    cases table.allot form analyses with
    | error failure => rfl
    | ok result =>
      simp only [settle, run_run_bind, run_run_modify, pure_bind]
      rfl

end

/-! ## Requests -/

variable {analyze : String → List Analysis} {table : FormTable} {form : String}

theorem run_serve_look (lookup : Lookup) (table : FormTable) :
    (serve (.look lookup : Request Id)).run table = (table.answer lookup, table) := rfl

theorem run_serve_add (analyze : String → List Analysis) (form : String) (table : FormTable) :
    (serve (.add analyze form : Request Id)).run table = match table.add analyze form with
      | .ok (grown, entry) => (.taken entry.span, grown)
      | .error failure => (.refused failure, table) := by
  have hcall : (addInPlace (m := Id) analyze form).run.run table
      = table.settle (table.add analyze form) := run_addInPlace (m := Id) analyze table form
  rw [serve, StateT.run_bind, hcall]
  cases table.add analyze form with
  | ok result => rfl
  | error failure => rfl

/-- Requests are served in two parts, the second with the table that the first leaves. -/
theorem run_serveAll_append {first second : List (Request Id)} {answers later : List Answer}
    {between last : FormTable} (hfirst : (serveAll first).run table = (answers, between))
    (hsecond : (serveAll second).run between = (later, last)) :
    (serveAll (first ++ second)).run table = (answers ++ later, last) := by
  rw [serveAll] at hfirst hsecond ⊢
  rw [List.mapM_append, StateT.run_bind, hfirst]
  exact congrArg (fun served : List Answer × FormTable => (answers ++ served.1, served.2)) hsecond

theorem run_serveAll_cons {request : Request Id} {requests : List (Request Id)} {answer : Answer}
    {answers : List Answer} {between last : FormTable}
    (hrequest : (serve request).run table = (answer, between))
    (hrequests : (serveAll requests).run between = (answers, last)) :
    (serveAll (request :: requests)).run table = (answer :: answers, last) := by
  rw [serveAll] at hrequests ⊢
  rw [List.mapM_cons, StateT.run_bind, hrequest]
  exact congrArg (fun served : List Answer × FormTable => (answer :: served.1, served.2)) hrequests

/-- One of the requests asked for a token of a form, and the token was taken. -/
def Took (form : String) (requests : List (Request Id)) (answers : List Answer) : Prop :=
  ∃ analyze span, (.add analyze form, .taken span) ∈ requests.zip answers

theorem took_cons {request : Request Id} {requests : List (Request Id)} {answer : Answer}
    {answers : List Answer} : Took form (request :: requests) (answer :: answers)
      ↔ (∃ analyze span, request = .add analyze form ∧ answer = .taken span)
        ∨ Took form requests answers := by
  simp only [Took, List.zip_cons_cons, List.mem_cons, Prod.mk.injEq, eq_comm, exists_or]

/-- A form has an entry after a call that succeeds if it had one before or is the form of the
call. -/
theorem isSome_iff_of_add {other : String} {grown : FormTable} {entry : FormEntry}
    (h : table.add analyze other = .ok (grown, entry)) : grown.entries[form]?.isSome = true
      ↔ table.entries[form]?.isSome = true ∨ other = form := by
  rcases add_eq_ok h with ⟨hentry, rfl⟩ | ⟨-, made, hallot, rfl⟩
  · show table.entries[form]?.isSome = true ↔ _
    refine (or_iff_left_of_imp ?_).symm
    rintro rfl
    exact Option.isSome_of_eq_some hentry
  · show made.entries[form]?.isSome = true ↔ _
    by_cases heq : other = form
    · rw [← heq, getElem?_of_allot hallot]
      exact iff_of_true rfl (.inr rfl)
    · rw [getElem?_of_allot_of_ne hallot (Ne.symm heq)]
      exact (or_iff_left heq).symm

/-- A form has an entry after a request if it had one before or the request took it. -/
theorem isSome_iff_of_serve {request : Request Id} {answer : Answer} {grown : FormTable}
    (h : (serve request).run table = (answer, grown)) : grown.entries[form]?.isSome = true
      ↔ table.entries[form]?.isSome = true
        ∨ ∃ analyze span, request = .add analyze form ∧ answer = .taken span := by
  cases request with
  | look lookup =>
    rw [run_serve_look] at h
    cases h
    simp
  | add analyze other =>
    rw [run_serve_add] at h
    cases hadd : table.add analyze other with
    | error failure =>
      rw [hadd] at h
      cases h
      simp
    | ok result =>
      obtain ⟨made, entry⟩ := result
      rw [hadd] at h
      cases h
      rw [isSome_iff_of_add hadd]
      refine or_congr_right ⟨fun heq => ⟨analyze, entry.span, heq ▸ rfl, rfl⟩, ?_⟩
      rintro ⟨_, _, hrequest, -⟩
      cases hrequest
      rfl

/-- A form has an entry after requests if it had one before or one of them took it. -/
theorem isSome_iff_of_serveAll {requests : List (Request Id)} {answers : List Answer}
    {last : FormTable} (h : (serveAll requests).run table = (answers, last)) :
    last.entries[form]?.isSome = true
      ↔ table.entries[form]?.isSome = true ∨ Took form requests answers := by
  induction requests generalizing table answers with
  | nil =>
    cases h
    simp [Took]
  | cons request requests ih =>
    rcases hserve : (serve request).run table with ⟨answer, between⟩
    rcases hrest : (serveAll requests).run between with ⟨rest, final⟩
    rw [run_serveAll_cons hserve hrest] at h
    cases h
    rw [took_cons, ih hrest, isSome_iff_of_serve hserve, or_assoc]

/-- Whatever a new table has been asked before, a call fails exactly if no token of its form was
taken, the analyses of the form have other records than the zero record, and there is no room for
these: they would lie too far back in the buffer, which is looked at first, or are too many. The
failure says so. It leaves the table as it was, and the answers to all later requests are those that
they get without the call. -/
theorem failed_add_leaves_no_trace (analyze : String → List Analysis) (form : String)
    (before later : List (Request Id)) :
    let served := (serveAll before).run .empty
    let table := served.2
    let call := (addInPlace (m := Id) analyze form).run.run table
    ∃ records : List Record, records.Pairwise (· < ·)
      ∧ (∀ record, record ∈ records ↔ ∃ analysis ∈ analyze form, record ∈ analysis.records)
      ∧ ∀ failure, (call.1 = .error failure ↔ ¬Took form before served.1
          ∧ records ≠ [] ∧ records ≠ [0]
          ∧ if 2 ^ 24 ≤ table.records.size then failure = .offsetOverflow table.records.size
            else 256 ≤ records.length ∧ failure = .lengthOverflow form records.length)
        ∧ (call.1 = .error failure → call.2 = table
          ∧ ∃ answers last,
            (serveAll (before ++ later)).run .empty = (served.1 ++ answers, last)
              ∧ (serveAll (before ++ .add analyze form :: later)).run .empty
                = (served.1 ++ .refused failure :: answers, last)) := by
  intro served table call
  have hcall : call = table.settle (table.add analyze form) :=
    run_addInPlace (m := Id) analyze table form
  have hfails : ∀ failure, call.1 = .error failure ↔ table.add analyze form = .error failure := by
    intro failure
    rw [hcall, settle_fst_eq_error]
  have hknown : table.entries[form]? = none ↔ ¬Took form before served.1 := by
    have hiff : table.entries[form]?.isSome = true
        ↔ FormTable.empty.entries[form]?.isSome = true ∨ Took form before served.1 :=
      isSome_iff_of_serveAll rfl
    rw [← Option.not_isSome_iff_eq_none, hiff, FormTable.empty, Std.HashMap.getElem?_empty]
    simp
  refine ⟨ascending ((analyze form).flatMap Analysis.records), ascending_pairwise _,
    fun record => ?_, fun failure => ⟨?_, fun hfailed => ?_⟩⟩
  · rw [mem_ascending, List.mem_flatMap]
  · rw [hfails, add_eq_error_iff, hknown, allot_eq_error_iff]
    rfl
  · have hadd := (hfails failure).mp hfailed
    have hrefused : (serve (.add analyze form : Request Id)).run table
        = (.refused failure, table) := by
      rw [run_serve_add, hadd]
    have hleft : call.2 = table := by
      rw [hcall, hadd]
      rfl
    -- the later requests find the same table as without the call
    rcases hlater : (serveAll later).run table with ⟨more, last⟩
    exact ⟨hleft, more, last, run_serveAll_append rfl hlater,
      run_serveAll_append rfl (run_serveAll_cons hrefused hlater)⟩

/-- A verb that leaves too much open has 378 records, which are too many for a form. -/
theorem failed_add_of_openVerb :
    (addInPlace (m := Id) (fun _ => [Analysis.openVerb]) "verbum").run.run .empty
      = (.error (.lengthOverflow "verbum" 378), .empty) := by
  obtain ⟨records, hascending, hmem, hfails⟩ :=
    failed_add_leaves_no_trace (fun _ => [Analysis.openVerb]) "verbum" [] []
  have hrecords : records = ascending Analysis.openVerb.records := by
    refine List.Pairwise.eq_of_mem_iff hascending (ascending_pairwise _) fun record => ?_
    simp only [hmem, List.mem_singleton, exists_eq_left, mem_ascending]
  have hlength : records.length = 378 := by
    rw [hrecords, Analysis.length_ascending_openVerb]
  have hnone : ∀ answers, ¬Took "verbum" [] answers := by
    rintro answers ⟨analyze, span, hmem⟩
    cases hmem
  have hsome : records ≠ [] ∧ records ≠ [0] := by
    constructor
    · rintro rfl
      cases hlength
    · rintro rfl
      cases hlength
  obtain ⟨hiff, hleft⟩ := hfails (.lengthOverflow "verbum" 378)
  have hfailed := hiff.mpr ⟨hnone _, hsome.1, hsome.2, by
    rw [if_neg (by decide), hlength]
    exact ⟨by decide, rfl⟩⟩
  exact Prod.ext hfailed (hleft hfailed).1

end Concordance.FormTable
