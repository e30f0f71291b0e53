import Concordance.Corpus.Draft
import Concordance.Proofs.Except
import Concordance.Proofs.Text.Slice

/-!
# The text of a corpus

The text is put together token by token, with the place of each token and of the break behind it.
Looking a token up by its places gives back its spelling (`CorpusText.Spells.token?_eq`), and what
stands between it and the next is its break (`CorpusText.Spells.break?_eq`).

- `runningText`: tokens with their breaks, one after the other.
- `CorpusText.Spells`: a text is the running text of tokens, and has their places.
-/

namespace Concordance

/-- The text of tokens with the breaks behind them. -/
def runningText : List Token → String
  | [] => ""
  | token :: tokens => token.spelling ++ token.trailing ++ runningText tokens

theorem runningText_append (first second : List Token) :
    runningText (first ++ second) = runningText first ++ runningText second := by
  induction first with
  | nil => rw [List.nil_append, runningText, String.empty_append]
  | cons token tokens ih =>
    simp only [List.cons_append, runningText, ih, String.append_assoc]

/-- The running text up to a token, with the token, and behind it. -/
theorem runningText_split {tokens : List Token} {index : Nat} {token : Token}
    (htoken : tokens[index]? = some token) :
    runningText tokens = runningText (tokens.take index) ++ token.spelling
      ++ (token.trailing ++ runningText (tokens.drop (index + 1))) := by
  obtain ⟨hlt, hget⟩ := List.getElem?_eq_some_iff.mp htoken
  have htokens : tokens.take index ++ token :: tokens.drop (index + 1) = tokens := by
    rw [← hget, ← List.drop_eq_getElem_cons hlt, List.take_append_drop]
  have hrunning := congrArg runningText htokens
  rw [runningText_append, runningText] at hrunning
  rw [← hrunning]
  simp only [String.append_assoc]

/-- The running text with one more token. -/
theorem runningText_take_succ {tokens : List Token} {index : Nat} {token : Token}
    (htoken : tokens[index]? = some token) :
    runningText (tokens.take (index + 1))
      = runningText (tokens.take index) ++ token.spelling ++ token.trailing := by
  rw [List.take_add_one, htoken, Option.toList_some, runningText_append, runningText, runningText,
    String.append_empty, String.append_assoc]

namespace CorpusText

/-- A text is the running text of tokens and has the places of each of them. -/
structure Spells (text : CorpusText) (tokens : List Token) : Prop where
  /-- The text is made of the tokens and their breaks. -/
  text_eq : text.text = runningText tokens
  /-- There is a place for each token. -/
  size_tokenStarts : text.tokenStarts.size = tokens.length
  /-- There is a place for the break behind each token. -/
  size_breakStarts : text.breakStarts.size = tokens.length
  /-- A token starts behind the running text of the tokens before it, and stops at its break. -/
  places : ∀ (index : Nat) (token : Token), tokens[index]? = some token →
    ∃ start stop : UInt32, text.tokenStarts[index]? = some start
      ∧ text.breakStarts[index]? = some stop
      ∧ start.toNat = (runningText (tokens.take index)).utf8ByteSize
      ∧ stop.toNat = start.toNat + token.spelling.utf8ByteSize

namespace Spells

variable {text : CorpusText} {tokens : List Token}

/-- A token is looked up as it is spelled. -/
theorem token?_eq (h : text.Spells tokens) {index : Nat} {token : Token}
    (htoken : tokens[index]? = some token) : text.token? index = some token.spelling := by
  obtain ⟨start, stop, hstart, hstop, hbefore, hspelling⟩ := h.places index token htoken
  have hslice := sliceBytes?_append (runningText (tokens.take index)) token.spelling
    (token.trailing ++ runningText (tokens.drop (index + 1)))
  rw [← runningText_split htoken, ← h.text_eq, ← hbefore, ← hspelling] at hslice
  rw [CorpusText.token?, hstart, hstop]
  exact hslice

/-- The break of a token stops where the next token starts, or at the end of the text. -/
theorem stop_eq (h : text.Spells tokens) (index : Nat) :
    (match text.tokenStarts[index + 1]? with
      | some next => next.toNat
      | none => text.text.utf8ByteSize)
      = (runningText (tokens.take (index + 1))).utf8ByteSize := by
  cases hnext : tokens[index + 1]? with
  | some next =>
    obtain ⟨start, stop, hstart, -, hbefore, -⟩ := h.places (index + 1) next hnext
    rw [hstart]
    exact hbefore
  | none =>
    have hlength : tokens.length ≤ index + 1 := List.getElem?_eq_none_iff.mp hnext
    rw [Array.getElem?_eq_none (h.size_tokenStarts ▸ hlength), List.take_of_length_le hlength,
      ← h.text_eq]

/-- What stands between a token and the next is its break. -/
theorem break?_eq (h : text.Spells tokens) {index : Nat} {token : Token}
    (htoken : tokens[index]? = some token) : text.break? index = some token.trailing := by
  obtain ⟨start, stop, -, hstop, hbefore, hspelling⟩ := h.places index token htoken
  have hslice := sliceBytes?_append (runningText (tokens.take index) ++ token.spelling)
    token.trailing (runningText (tokens.drop (index + 1)))
  rw [String.append_assoc, ← runningText_split htoken, ← h.text_eq, ← String.utf8ByteSize_append,
    ← runningText_take_succ htoken, ← h.stop_eq index, String.utf8ByteSize_append, ← hbefore,
    ← hspelling] at hslice
  rw [CorpusText.break?, hstop]
  exact hslice

/-- Every look-up, also of a number that no token has. -/
theorem lookups_eq (h : text.Spells tokens) (index : Nat) :
    text.token? index = tokens[index]?.map (·.spelling)
      ∧ text.break? index = tokens[index]?.map (·.trailing) := by
  cases htoken : tokens[index]? with
  | some token => exact ⟨h.token?_eq htoken, h.break?_eq htoken⟩
  | none =>
    have hlength : tokens.length ≤ index := List.getElem?_eq_none_iff.mp htoken
    constructor
    · rw [CorpusText.token?, Array.getElem?_eq_none (h.size_tokenStarts ▸ hlength)]
      rfl
    · rw [CorpusText.break?, Array.getElem?_eq_none (h.size_breakStarts ▸ hlength)]
      rfl

/-- A text without tokens. -/
theorem empty : (⟨"", #[], #[]⟩ : CorpusText).Spells [] := by
  refine ⟨rfl, rfl, rfl, fun index token htoken => ?_⟩
  rw [List.getElem?_nil] at htoken
  cases htoken

end Spells

end CorpusText

namespace Draft

/-- An offset that 32 bits can say is the size of the text. -/
theorem toNat_textOffset {text : String} {offset : UInt32} (h : textOffset text = .ok offset) :
    offset.toNat = text.utf8ByteSize := by
  unfold textOffset at h
  split at h
  case isTrue hlt =>
    cases h
    exact UInt32.toNat_ofNat_of_lt' hlt
  case isFalse => cases h

variable {text grown : CorpusText} {tokens : List Token} {token : Token}

/-- One more token is put behind the text. -/
theorem spells_appendText (h : text.Spells tokens) (hgrown : appendText text token = .ok grown) :
    grown.Spells (tokens ++ [token]) := by
  unfold appendText at hgrown
  obtain ⟨start, hstart, hgrown⟩ := bind_eq_ok.mp hgrown
  obtain ⟨stop, hstop, hgrown⟩ := bind_eq_ok.mp hgrown
  cases hgrown
  refine ⟨?_, ?_, ?_, fun index found hfound => ?_⟩
  · rw [runningText_append, runningText, runningText, String.append_empty, h.text_eq,
      String.append_assoc]
  · rw [Array.size_push, h.size_tokenStarts, List.length_append, List.length_singleton]
  · rw [Array.size_push, h.size_breakStarts, List.length_append, List.length_singleton]
  · rcases Nat.lt_or_ge index tokens.length with hlt | hge
    · -- an earlier token keeps its places
      rw [List.getElem?_append_left hlt] at hfound
      obtain ⟨first, last, hfirst, hlast, hplaces⟩ := h.places index found hfound
      refine ⟨first, last, ?_, ?_, ?_⟩
      · rw [Array.getElem?_push, if_neg (by rw [h.size_tokenStarts]; omega)]
        exact hfirst
      · rw [Array.getElem?_push, if_neg (by rw [h.size_breakStarts]; omega)]
        exact hlast
      · rw [List.take_append_of_le_length (Nat.le_of_lt hlt)]
        exact hplaces
    · -- the new token starts where the text ended
      rw [List.getElem?_append_right hge] at hfound
      have hindex : index - tokens.length < 1 := (List.getElem?_eq_some_iff.mp hfound).1
      have heq : index = tokens.length := by omega
      rw [heq, Nat.sub_self] at hfound
      cases hfound
      refine ⟨start, stop, ?_, ?_, ?_, ?_⟩
      · rw [heq, ← h.size_tokenStarts, Array.getElem?_push_size]
      · rw [heq, ← h.size_breakStarts, Array.getElem?_push_size]
      · rw [heq, List.take_left, toNat_textOffset hstart, h.text_eq]
      · rw [toNat_textOffset hstop, toNat_textOffset hstart, String.utf8ByteSize_append]

/-- Putting tokens behind a text one after the other. -/
theorem spells_foldlM {added : List Token} (h : text.Spells tokens)
    (hgrown : added.foldlM appendText text = .ok grown) : grown.Spells (tokens ++ added) :=
  foldlM_keeps (fun text tokens => text.Spells tokens)
    (fun hnext hspells => spells_appendText hspells hnext) hgrown h

/-- The text of tokens spells just these. -/
theorem spells_textOf (h : textOf tokens = .ok text) : text.Spells tokens := by
  unfold textOf at h
  obtain ⟨grown, hgrown, h⟩ := bind_eq_ok.mp h
  obtain ⟨_, _, h⟩ := bind_eq_ok.mp h
  cases h
  exact spells_foldlM .empty hgrown

/-- There is an offset into a text exactly if 32 bits can say it. -/
theorem exists_textOffset_iff {text : String} :
    (∃ offset, textOffset text = .ok offset) ↔ text.utf8ByteSize < UInt32.size := by
  unfold textOffset
  by_cases hlt : text.utf8ByteSize < UInt32.size
  · rw [if_pos hlt]
    exact iff_of_true ⟨_, rfl⟩ hlt
  · rw [if_neg hlt]
    refine iff_of_false ?_ hlt
    rintro ⟨_, h⟩
    cases h

/-- Tokens are put behind a text as long as offsets can say where they end. -/
theorem exists_foldlM_appendText {added : List Token} (h : text.Spells tokens)
    (hsize : (runningText (tokens ++ added)).utf8ByteSize < UInt32.size) :
    ∃ grown, added.foldlM appendText text = .ok grown := by
  induction added generalizing text tokens with
  | nil => exact ⟨text, rfl⟩
  | cons token added ih =>
    have hbound := hsize
    rw [runningText_append, runningText, ← h.text_eq] at hbound
    simp only [String.utf8ByteSize_append] at hbound
    obtain ⟨start, hstart⟩ := exists_textOffset_iff.mpr
      (show text.text.utf8ByteSize < UInt32.size by omega)
    obtain ⟨stop, hstop⟩ := exists_textOffset_iff.mpr
      (show (text.text ++ token.spelling).utf8ByteSize < UInt32.size by
        rw [String.utf8ByteSize_append]
        omega)
    obtain ⟨next, hnext⟩ : ∃ next, appendText text token = .ok next :=
      ⟨_, bind_eq_ok.mpr ⟨start, hstart, bind_eq_ok.mpr ⟨stop, hstop, rfl⟩⟩⟩
    rw [← List.singleton_append, ← List.append_assoc] at hsize
    obtain ⟨grown, hgrown⟩ := ih (spells_appendText h hnext) hsize
    exact ⟨grown, bind_eq_ok.mpr ⟨next, hnext, hgrown⟩⟩

/-- Tokens have a text exactly if offsets can say where it ends. -/
theorem exists_textOf_iff :
    (∃ text, textOf tokens = .ok text) ↔ (runningText tokens).utf8ByteSize < UInt32.size := by
  constructor
  · rintro ⟨text, htext⟩
    rw [← (spells_textOf htext).text_eq]
    unfold textOf at htext
    obtain ⟨grown, -, htext⟩ := bind_eq_ok.mp htext
    obtain ⟨stop, hstop, htext⟩ := bind_eq_ok.mp htext
    cases htext
    exact exists_textOffset_iff.mp ⟨stop, hstop⟩
  · intro hsize
    obtain ⟨grown, hgrown⟩ := exists_foldlM_appendText CorpusText.Spells.empty hsize
    have hspells := spells_foldlM .empty hgrown
    obtain ⟨stop, hstop⟩ := exists_textOffset_iff.mpr (hspells.text_eq ▸ hsize)
    exact ⟨grown, bind_eq_ok.mpr ⟨grown, hgrown, bind_eq_ok.mpr ⟨stop, hstop, rfl⟩⟩⟩

end Draft

end Concordance
