import Concordance.Proofs.Corpus.Tokens
import Concordance.Proofs.Forms.Layout

/-!
# The forms of the tokens

The form table of a draft has a token for each token of the draft, of the form that its search key
says (`Draft.Accounted`). Every step of a build keeps this, so the table of every corpus lays out
the records of its tokens once (`Corpus.exists_accounts`).
-/

namespace Concordance

namespace Draft

/-- The search keys of the tokens of a draft. -/
def searchKeys (draft : Draft) : List String :=
  draft.tokens.toList.map fun token => Fold.searchKey token.spelling

/-- The form table of a draft is right about the forms of its tokens. -/
def Accounted (analyze : String → List Analysis) (draft : Draft) : Prop :=
  draft.forms.Accounts analyze draft.searchKeys

variable {analyze : String → List Analysis} {draft grown : Draft}

/-- Text behind a token does not change its form. -/
theorem searchKeys_appendBreak (draft : Draft) (text : String) :
    (draft.appendBreak text).searchKeys = draft.searchKeys := by
  refine List.ext_getElem? ?_
  intro index
  unfold searchKeys appendBreak
  rw [List.getElem?_map, List.getElem?_map, Array.getElem?_toList, Array.getElem?_toList,
    Array.getElem?_modify]
  split
  case isTrue => cases draft.tokens[index]? <;> rfl
  case isFalse => rfl

/-- Every step of a build keeps the account of the forms. -/
theorem Accounted.step (hstep : Step analyze draft grown) (h : draft.Accounted analyze) :
    grown.Accounted analyze := by
  cases hstep with
  | reading hread =>
    cases hread with
    | word hword =>
      obtain ⟨-, forms, entry, hadd, rfl⟩ := addWord_eq_ok hword
      unfold Accounted searchKeys
      rw [Array.toList_push, List.map_append]
      exact (FormTable.Accounts.add h hadd).1
    | text text =>
      unfold Accounted
      rw [searchKeys_appendBreak]
      exact h
    | boundary =>
      unfold Accounted searchKeys
      rw [tokens_markHardBreak]
      unfold markHardBreak
      split <;> exact h
  | spans works authors => exact h

end Draft

/-- The form table of every corpus that is built is right about the forms of its tokens. -/
theorem Corpus.exists_accounts {reader : Reader} {ratio : UInt32} {works : List Work}
    {corpus : Corpus} (h : ofWorks reader ratio works = .ok corpus) :
    ∃ forms, corpus.forms.Accounts reader.analyze forms ∧ forms.length = corpus.tokenCount := by
  unfold ofWorks at h
  obtain ⟨draft, hdraft, hfinish⟩ := bind_eq_ok.mp h
  obtain ⟨hcount, -, -, -, -, hforms, -⟩ := Draft.finish_eq_ok hfinish
  have haccounted : draft.Accounted reader.analyze :=
    (Draft.reaches_foldlM_addWork hdraft).keeps Draft.Accounted.step FormTable.Accounts.empty
  refine ⟨draft.searchKeys, hforms ▸ haccounted, ?_⟩
  rw [hcount, Draft.searchKeys, List.length_map, Array.length_toList]

end Concordance
