import Concordance.Audit.Basic
import Concordance.Proofs.Corpus.Text

/-!
# The written places of tokens

The places of tokens and of the breaks behind them are written by turns. They never fall and stay
within the text (`CorpusText.Spells.neverFalls_starts`, `CorpusText.Spells.le_of_mem_starts`), and
that of a token is found at twice its number (`CorpusText.Spells.getElem?_starts_even`).
-/

namespace Concordance

/-! ## Pairs in a row -/

section

variable {α : Type} (pairs : List (α × α)) (index : Nat)

theorem length_flatMap_pair :
    (pairs.flatMap fun (first, second) => [first, second]).length = 2 * pairs.length := by
  induction pairs with
  | nil => rfl
  | cons pair pairs ih =>
    rw [List.flatMap_cons, List.length_append, ih, List.length_cons]
    show 2 + 2 * pairs.length = 2 * (pairs.length + 1)
    omega

theorem getElem?_flatMap_pair_even :
    (pairs.flatMap fun (first, second) => [first, second])[2 * index]?
      = pairs[index]?.map (·.1) := by
  induction pairs generalizing index with
  | nil => rfl
  | cons pair pairs ih =>
    cases index with
    | zero => rfl
    | succ index => exact ih index

theorem getElem?_flatMap_pair_odd :
    (pairs.flatMap fun (first, second) => [first, second])[2 * index + 1]?
      = pairs[index]?.map (·.2) := by
  induction pairs generalizing index with
  | nil => rfl
  | cons pair pairs ih =>
    cases index with
    | zero => rfl
    | succ index => exact ih index

end

/-- A list in which no number is greater than the next never falls. -/
theorem Audit.neverFalls_of_getElem? {numbers : List UInt32}
    (h : ∀ index first second, numbers[index]? = some first → numbers[index + 1]? = some second →
      first ≤ second) : neverFalls numbers = true := by
  induction numbers with
  | nil => rfl
  | cons first later ih =>
    cases later with
    | nil => rfl
    | cons second later =>
      have hfirst : first ≤ second := h 0 first second rfl rfl
      have hlater : neverFalls (second :: later) = true := by
        refine ih ?_
        intro index
        exact h (index + 1)
      rw [neverFalls, hlater, Bool.and_true, decide_eq_true_eq]
      exact hfirst

namespace CorpusText

variable {text : CorpusText} {tokens : List Token}

namespace Spells

/-- The place of a token is written at twice its number. -/
theorem getElem?_starts_even (h : text.Spells tokens) (index : Nat) :
    text.starts[2 * index]? = text.tokenStarts[index]? := by
  have hle : text.tokenStarts.toList.length ≤ text.breakStarts.toList.length := by
    refine Nat.le_of_eq ?_
    rw [Array.length_toList, Array.length_toList, h.size_tokenStarts, h.size_breakStarts]
  rw [starts, getElem?_flatMap_pair_even, ← List.getElem?_map, List.map_fst_zip hle,
    Array.getElem?_toList]

/-- The place of its break is written behind. -/
theorem getElem?_starts_odd (h : text.Spells tokens) (index : Nat) :
    text.starts[2 * index + 1]? = text.breakStarts[index]? := by
  have hle : text.breakStarts.toList.length ≤ text.tokenStarts.toList.length := by
    refine Nat.le_of_eq ?_
    rw [Array.length_toList, Array.length_toList, h.size_tokenStarts, h.size_breakStarts]
  rw [starts, getElem?_flatMap_pair_odd, ← List.getElem?_map, List.map_snd_zip hle,
    Array.getElem?_toList]

theorem length_starts (h : text.Spells tokens) : text.starts.length = 2 * tokens.length := by
  rw [starts, length_flatMap_pair, List.length_zip, Array.length_toList, Array.length_toList,
    h.size_tokenStarts, h.size_breakStarts, Nat.min_self]

/-- Every place is that of a token or of the break behind it. -/
theorem exists_token_of_starts (h : text.Spells tokens) {index : Nat} {place : UInt32}
    (hplace : text.starts[index]? = some place) :
    ∃ number token, tokens[number]? = some token
      ∧ ((index = 2 * number ∧ place.toNat = (runningText (tokens.take number)).utf8ByteSize)
        ∨ (index = 2 * number + 1 ∧ place.toNat
          = (runningText (tokens.take number) ++ token.spelling).utf8ByteSize)) := by
  have hlt := (List.getElem?_eq_some_iff.mp hplace).1
  rw [h.length_starts] at hlt
  have htoken : tokens[index / 2]? = some tokens[index / 2] := List.getElem?_eq_getElem (by omega)
  obtain ⟨start, stop, hstart, hstop, hbefore, hspelling⟩ := h.places (index / 2) _ htoken
  refine ⟨index / 2, _, htoken, ?_⟩
  rcases Nat.mod_two_eq_zero_or_one index with heven | hodd
  · have heq : index = 2 * (index / 2) := by omega
    rw [heq, h.getElem?_starts_even, hstart] at hplace
    cases hplace
    exact .inl ⟨heq, hbefore⟩
  · have heq : index = 2 * (index / 2) + 1 := by omega
    rw [heq, h.getElem?_starts_odd, hstop] at hplace
    cases hplace
    refine .inr ⟨heq, ?_⟩
    rw [hspelling, hbefore, String.utf8ByteSize_append]

/-- No place lies behind the text. -/
theorem le_of_mem_starts (h : text.Spells tokens) {place : UInt32} (hplace : place ∈ text.starts) :
    place.toNat ≤ text.text.utf8ByteSize := by
  obtain ⟨index, hindex⟩ := List.getElem?_of_mem hplace
  obtain ⟨number, token, htoken, hcases⟩ := h.exists_token_of_starts hindex
  have hsplit := congrArg String.utf8ByteSize (runningText_split htoken)
  rw [String.utf8ByteSize_append, ← h.text_eq, String.utf8ByteSize_append] at hsplit
  rcases hcases with ⟨-, hstart⟩ | ⟨-, hstop⟩
  · omega
  · rw [String.utf8ByteSize_append] at hstop
    omega

/-- A token starts before its break, and its break before the next token. -/
theorem neverFalls_starts (h : text.Spells tokens) : Audit.neverFalls text.starts = true := by
  refine Audit.neverFalls_of_getElem? ?_
  intro index first second hfirst hsecond
  rw [UInt32.le_iff_toNat_le]
  obtain ⟨number, token, htoken, hcases⟩ := h.exists_token_of_starts hfirst
  obtain ⟨next, nextToken, hnext, hnextCases⟩ := h.exists_token_of_starts hsecond
  rcases hcases with ⟨hindex, hplace⟩ | ⟨hindex, hplace⟩
  · rcases hnextCases with ⟨hnextIndex, -⟩ | ⟨hnextIndex, hnextPlace⟩
    · omega
    · obtain rfl : next = number := by omega
      rw [hplace, hnextPlace, String.utf8ByteSize_append]
      omega
  · rcases hnextCases with ⟨hnextIndex, hnextPlace⟩ | ⟨hnextIndex, -⟩
    · obtain rfl : next = number + 1 := by omega
      rw [runningText_take_succ htoken, String.utf8ByteSize_append] at hnextPlace
      omega
    · omega

end Spells

end CorpusText

end Concordance
