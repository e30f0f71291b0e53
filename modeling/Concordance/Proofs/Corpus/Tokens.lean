import Concordance.Proofs.Corpus.Index
import Concordance.Proofs.Corpus.Keys
import Concordance.Proofs.Corpus.Steps
import Concordance.Proofs.Corpus.Text
import Concordance.Proofs.Text.Chunk

/-!
# Tokens of chunks

What the tokens of a build are can be said at a glance: every word among the chunks is a token, and
the text up to the next word is its break (`Token.ofChunks`). A draft gets its tokens chunk by
chunk, with every further text going to the last token, and arrives at just these.

- `Token.join_eq`: the text of chunks is that of their tokens, behind what stands before the first
  word.
- `Draft.Tells`: the tokens of a draft are those of chunks, and the tokens before hard boundaries
  are those with a full stop behind them and those that are marked otherwise.
- `Draft.Tells.addChunks`: taking chunks keeps this.
-/

namespace Concordance

/-! ## Closed form -/

namespace Token

/-- The tokens of chunks: every word is one, and the text up to the next word is its break. What
stands before the first word belongs to no token. -/
def ofChunks : List Chunk → List Token
  | [] => []
  | chunk :: chunks =>
    if chunk.isWord then ⟨chunk.text, Chunk.join (Chunk.opening chunks)⟩ :: ofChunks chunks
    else ofChunks chunks

variable {chunk : Chunk} {chunks : List Chunk}

theorem ofChunks_cons_word (h : chunk.isWord = true) (chunks : List Chunk) :
    ofChunks (chunk :: chunks)
      = ⟨chunk.text, Chunk.join (Chunk.opening chunks)⟩ :: ofChunks chunks := by
  rw [ofChunks, if_pos h]

theorem ofChunks_cons_break (h : chunk.isWord = false) (chunks : List Chunk) :
    ofChunks (chunk :: chunks) = ofChunks chunks := by
  rw [ofChunks, h]
  rfl

/-- The tokens are spelled as the words are, in the same order. -/
theorem spellings_ofChunks (chunks : List Chunk) :
    (ofChunks chunks).map (·.spelling) = (chunks.filter (·.isWord)).map (·.text) := by
  induction chunks with
  | nil => rfl
  | cons chunk chunks ih =>
    cases hword : chunk.isWord with
    | true =>
      rw [ofChunks_cons_word hword, List.filter_cons_of_pos hword, List.map_cons, List.map_cons, ih]
    | false => rw [ofChunks_cons_break hword, List.filter_cons_of_neg (by simp [hword]), ih]

/-- There are as many tokens as words. -/
theorem length_ofChunks (chunks : List Chunk) :
    (ofChunks chunks).length = chunks.countP (·.isWord) := by
  rw [← List.length_map (·.spelling), spellings_ofChunks, List.length_map,
    List.countP_eq_length_filter]

/-- Without a word there is no token. -/
theorem ofChunks_eq_nil_iff : ofChunks chunks = [] ↔ chunks.any (·.isWord) = false := by
  rw [← List.length_eq_zero_iff, length_ofChunks, List.countP_eq_zero, List.any_eq_false]

/-- Nothing is lost but what stands before the first word. -/
theorem join_eq (chunks : List Chunk) :
    Chunk.join chunks
      = Chunk.join (Chunk.opening chunks) ++ runningText (ofChunks chunks) := by
  induction chunks with
  | nil => rfl
  | cons chunk chunks ih =>
    cases hword : chunk.isWord with
    | true =>
      rw [ofChunks_cons_word hword, Chunk.opening_cons_word hword, runningText, Chunk.join_cons, ih,
        Chunk.join_nil, String.empty_append, String.append_assoc]
    | false =>
      rw [ofChunks_cons_break hword, Chunk.opening_cons_break hword, Chunk.join_cons,
        Chunk.join_cons, ih, String.append_assoc]

/-- One more word is one more token, as yet without a break. -/
theorem ofChunks_concat_word (h : chunk.isWord = true) (chunks : List Chunk) :
    ofChunks (chunks ++ [chunk]) = ofChunks chunks ++ [⟨chunk.text, ""⟩] := by
  induction chunks with
  | nil => rw [List.nil_append, ofChunks_cons_word h]; rfl
  | cons first later ih =>
    cases hword : first.isWord with
    | true =>
      -- the new word is not part of the break before it
      have hopening : Chunk.opening (later ++ [chunk]) = Chunk.opening later := by
        cases hany : later.any (·.isWord) with
        | true => exact Chunk.opening_append_of_any hany [chunk]
        | false =>
          rw [Chunk.opening_append_of_not_any hany, Chunk.opening_cons_word h, List.append_nil,
            Chunk.opening_of_not_any hany]
      rw [List.cons_append, ofChunks_cons_word hword, ofChunks_cons_word hword, ih, hopening,
        List.cons_append]
    | false => rw [List.cons_append, ofChunks_cons_break hword, ofChunks_cons_break hword, ih]

/-- Puts a text behind the last token, if there is one. -/
def extendLast (text : String) (tokens : List Token) : List Token :=
  tokens.modify (tokens.length - 1) fun token => { token with trailing := token.trailing ++ text }

theorem extendLast_concat (text : String) (tokens : List Token) (token : Token) :
    extendLast text (tokens ++ [token])
      = tokens ++ [{ token with trailing := token.trailing ++ text }] := by
  unfold extendLast
  rw [List.length_append, List.length_singleton, Nat.add_sub_cancel]
  induction tokens with
  | nil => rfl
  | cons first later ih =>
    rw [List.cons_append, List.length_cons, List.modify_succ_cons, ih]
    rfl

@[simp] theorem length_extendLast (text : String) (tokens : List Token) :
    (extendLast text tokens).length = tokens.length :=
  List.length_modify ..

theorem extendLast_empty (tokens : List Token) : extendLast "" tokens = tokens := by
  rcases List.eq_nil_or_concat' tokens with rfl | ⟨before, last, rfl⟩
  · rfl
  · rw [extendLast_concat, String.append_empty]

theorem extendLast_extendLast (first second : String) (tokens : List Token) :
    extendLast second (extendLast first tokens) = extendLast (first ++ second) tokens := by
  rcases List.eq_nil_or_concat' tokens with rfl | ⟨before, last, rfl⟩
  · rfl
  · rw [extendLast_concat, extendLast_concat, extendLast_concat, String.append_assoc]

theorem runningText_extendLast (text : String) {tokens : List Token} (hsome : tokens ≠ []) :
    runningText (extendLast text tokens) = runningText tokens ++ text := by
  obtain ⟨before, last, rfl⟩ := (List.eq_nil_or_concat' tokens).resolve_left hsome
  rw [extendLast_concat]
  simp only [runningText_append, runningText, String.append_empty, String.append_assoc]

/-- The tokens before the last one stay as they are. -/
theorem take_extendLast (text : String) {tokens : List Token} {count : Nat}
    (hcount : count < tokens.length) : (extendLast text tokens).take count = tokens.take count := by
  rcases List.eq_nil_or_concat' tokens with rfl | ⟨before, last, rfl⟩
  · rfl
  · have hle : count ≤ before.length := by
      rw [List.length_append, List.length_singleton] at hcount
      omega
    rw [extendLast_concat, List.take_append_of_le_length hle, List.take_append_of_le_length hle]

/-- The text is put behind the last token, and every token is spelled as it was. -/
theorem getElem?_extendLast (text : String) (tokens : List Token) (index : Nat) :
    (extendLast text tokens)[index]? = tokens[index]?.map fun token =>
      if index + 1 = tokens.length then { token with trailing := token.trailing ++ text }
      else token := by
  unfold extendLast
  rw [List.getElem?_modify]
  cases htoken : tokens[index]? with
  | none => rfl
  | some token =>
    have hlt := (List.getElem?_eq_some_iff.mp htoken).1
    have hlast : tokens.length - 1 = index ↔ index + 1 = tokens.length := by omega
    simp only [Option.map_eq_map, Option.map_some, hlast]

/-- Text behind the words goes to the break of the last token, if there is one. -/
theorem ofChunks_concat_break (h : chunk.isWord = false) (chunks : List Chunk) :
    ofChunks (chunks ++ [chunk]) = extendLast chunk.text (ofChunks chunks) := by
  unfold extendLast
  induction chunks with
  | nil => rw [List.nil_append, ofChunks_cons_break h]; rfl
  | cons first later ih =>
    cases hword : first.isWord with
    | false => rw [List.cons_append, ofChunks_cons_break hword, ofChunks_cons_break hword, ih]
    | true =>
      rw [List.cons_append, ofChunks_cons_word hword, ofChunks_cons_word hword, ih,
        List.length_cons, Nat.add_sub_cancel]
      cases hany : later.any (·.isWord) with
      | false =>
        -- the first word is the last one, and all that is behind it is its break
        rw [Chunk.opening_append_of_not_any hany, Chunk.opening_cons_break h,
          Chunk.opening_of_not_any hany, ofChunks_eq_nil_iff.mpr hany, Chunk.join_append,
          Chunk.join_cons, Chunk.opening_nil, Chunk.join_nil, String.append_empty]
        rfl
      | true =>
        rw [Chunk.opening_append_of_any hany]
        cases htokens : ofChunks later with
        | nil =>
          rw [ofChunks_eq_nil_iff, hany] at htokens
          cases htokens
        | cons token tokens =>
          rw [List.length_cons, Nat.add_sub_cancel, List.modify_succ_cons]

/-- Of further chunks, what stands before the first word goes to the last token there is, and the
words are the further tokens. -/
theorem ofChunks_append (first second : List Chunk) :
    ofChunks (first ++ second)
      = extendLast (Chunk.join (Chunk.opening second)) (ofChunks first) ++ ofChunks second := by
  -- the further chunks move to the first ones from the front
  induction second generalizing first with
  | nil =>
    rw [List.append_nil, Chunk.opening_nil, Chunk.join_nil, extendLast_empty]
    exact (List.append_nil _).symm
  | cons chunk second ih =>
    rw [← List.singleton_append, ← List.append_assoc, ih, List.singleton_append]
    cases hword : chunk.isWord with
    | true =>
      rw [ofChunks_concat_word hword, ofChunks_cons_word hword, Chunk.opening_cons_word hword,
        Chunk.join_nil, extendLast_empty, extendLast_concat, String.empty_append, List.append_assoc,
        List.singleton_append]
    | false =>
      rw [ofChunks_concat_break hword, ofChunks_cons_break hword, Chunk.opening_cons_break hword,
        Chunk.join_cons, extendLast_extendLast]

end Token

/-! ## Drafts -/

namespace Draft

/-- There is a full stop in the break of a token. -/
def Dotted (draft : Draft) (token : Nat) : Prop :=
  ∃ found, draft.tokens[token]? = some found ∧ '.' ∈ found.trailing.toList

/-- What a draft tells while it takes rows: it has the tokens of chunks, and the tokens before hard
boundaries are those with a full stop behind them and those that are marked otherwise. No work is
noted beyond those that were. -/
structure Tells (draft : Draft) (works : Array WorkSpan) (chunks : List Chunk)
    (marked : Nat → Prop) : Prop where
  /-- Every token has a 32-bit number. -/
  size_le : draft.tokens.size ≤ maxTokens
  /-- The works are those that were noted. -/
  works_eq : draft.works = works
  /-- The tokens are those of the chunks. -/
  tokens_eq : draft.tokens.toList = Token.ofChunks chunks
  /-- A token stands before a hard boundary for one of two reasons. -/
  mem_hardBreak : ∀ token : UInt32, token ∈ draft.index.tokensOf .hardBreak
    ↔ draft.Dotted token.toNat ∨ marked token.toNat

theorem dotted_appendBreak (draft : Draft) (text : String) (token : Nat) :
    (draft.appendBreak text).Dotted token
      ↔ draft.Dotted token ∨ (token + 1 = draft.tokens.size ∧ '.' ∈ text.toList) := by
  unfold Dotted appendBreak
  simp only [Array.getElem?_modify]
  by_cases hlast : draft.tokens.size - 1 = token
  · rw [if_pos hlast]
    cases hfound : draft.tokens[token]? with
    | none =>
      -- there are no tokens at all
      have hsize : draft.tokens.size ≤ token := Array.getElem?_eq_none_iff.mp hfound
      simp only [Option.map_none, reduceCtorEq, false_and, exists_false, false_or, false_iff]
      omega
    | some found =>
      have hlt := (Array.getElem?_eq_some_iff.mp hfound).1
      have hsize : token + 1 = draft.tokens.size := by omega
      simp [hsize, String.toList_append]
  · rw [if_neg hlast]
    have hsize : ¬token + 1 = draft.tokens.size := by omega
    simp only [hsize, false_and, or_false]

/-- A mark is put on the last token, if there is one, on no other, and under no other key. -/
theorem mem_tokensOf_markHardBreak {draft : Draft} (hsize : draft.tokens.size ≤ maxTokens)
    {key : IndexKey} {token : UInt32} :
    token ∈ draft.markHardBreak.index.tokensOf key ↔ token ∈ draft.index.tokensOf key
      ∨ (key = .hardBreak ∧ token.toNat + 1 = draft.tokens.size) := by
  unfold markHardBreak
  split
  case isTrue hnone =>
    rw [hnone]
    simp only [Nat.add_one_ne_zero, and_false, or_false]
  case isFalse hsome =>
    have hlast : (UInt32.ofNat (draft.tokens.size - 1)).toNat = draft.tokens.size - 1 := by
      refine UInt32.toNat_ofNat_of_lt' ?_
      unfold maxTokens at hsize
      omega
    rw [DraftIndex.mem_tokensOf_addHardBreak, ← UInt32.toNat_inj, hlast]
    refine or_congr_right (and_congr_right fun _ => ?_)
    omega

theorem mem_markHardBreak {draft : Draft} (hsize : draft.tokens.size ≤ maxTokens) (token : UInt32) :
    token ∈ draft.markHardBreak.index.tokensOf .hardBreak
      ↔ token ∈ draft.index.tokensOf .hardBreak ∨ token.toNat + 1 = draft.tokens.size := by
  rw [mem_tokensOf_markHardBreak hsize]
  simp only [true_and]

/-- It does not matter whether a mark is put on a token before or after text comes behind it. -/
theorem markHardBreak_appendBreak (draft : Draft) (text : String) :
    (draft.appendBreak text).markHardBreak = draft.markHardBreak.appendBreak text := by
  unfold markHardBreak appendBreak
  simp only [Array.size_modify]
  split <;> rfl

@[simp] theorem tokens_markHardBreak (draft : Draft) :
    draft.markHardBreak.tokens = draft.tokens := by
  unfold markHardBreak
  split <;> rfl

@[simp] theorem works_markHardBreak (draft : Draft) : draft.markHardBreak.works = draft.works := by
  unfold markHardBreak
  split <;> rfl

@[simp] theorem forms_markHardBreak (draft : Draft) : draft.markHardBreak.forms = draft.forms := by
  unfold markHardBreak
  split <;> rfl

namespace Tells

variable {analyze : String → List Analysis} {draft grown : Draft} {works : Array WorkSpan}
  {chunks : List Chunk} {marked : Nat → Prop}

/-- There are as many tokens as words among the chunks. -/
theorem size_eq (h : draft.Tells works chunks marked) :
    draft.tokens.size = chunks.countP (·.isWord) := by
  rw [← Token.length_ofChunks, ← h.tokens_eq, Array.length_toList]

/-- Marks may be described in another way. -/
theorem congr (h : draft.Tells works chunks marked) {other : Nat → Prop}
    (hother : ∀ token, marked token ↔ other token) : draft.Tells works chunks other :=
  ⟨h.size_le, h.works_eq, h.tokens_eq, fun token => by rw [h.mem_hardBreak, hother]⟩

/-- A word is the next token. As yet it has no break, and so no full stop. -/
theorem addWord (h : draft.Tells works chunks marked) {chunk : Chunk}
    (hisWord : chunk.isWord = true) (hword : draft.addWord analyze chunk.text = .ok grown) :
    grown.Tells works (chunks ++ [chunk]) marked := by
  obtain ⟨hroom, forms, entry, -, rfl⟩ := addWord_eq_ok hword
  refine ⟨?_, h.works_eq, ?_, fun token => ?_⟩
  · rw [Array.size_push]
    exact hroom
  · rw [Array.toList_push, h.tokens_eq, Token.ofChunks_concat_word hisWord]
  · rw [DraftIndex.mem_tokensOf_addWord, h.mem_hardBreak]
    simp only [IndexKey.hardBreak, breaks_not_mem_keysOf, false_and, or_false]
    refine or_congr_left ?_
    unfold Dotted
    rw [Array.getElem?_push]
    split
    case isTrue hnew => simp [hnew]
    case isFalse => rfl

/-- The last token, if there is one, is marked. -/
theorem markHardBreak (h : draft.Tells works chunks marked) :
    draft.markHardBreak.Tells works chunks
      fun token => marked token ∨ token + 1 = draft.tokens.size := by
  refine ⟨?_, ?_, ?_, fun token => ?_⟩
  · rw [tokens_markHardBreak]
    exact h.size_le
  · rw [works_markHardBreak]
    exact h.works_eq
  · rw [tokens_markHardBreak]
    exact h.tokens_eq
  · rw [mem_markHardBreak h.size_le, h.mem_hardBreak, Dotted, Dotted, tokens_markHardBreak,
      or_assoc]

/-- Text behind the last token, where each full stop in it has its mark. -/
theorem appendBreak (h : draft.Tells works chunks marked) (chunk : Chunk)
    (hisWord : chunk.isWord = false) {others : Nat → Prop}
    (hothers : ∀ token, marked token
      ↔ others token ∨ (token + 1 = draft.tokens.size ∧ '.' ∈ chunk.text.toList)) :
    (draft.appendBreak chunk.text).Tells works (chunks ++ [chunk]) others := by
  refine ⟨?_, h.works_eq, ?_, fun token => ?_⟩
  · unfold Draft.appendBreak
    rw [Array.size_modify]
    exact h.size_le
  · unfold Draft.appendBreak
    rw [Array.toList_modify, Token.ofChunks_concat_break hisWord, ← h.tokens_eq, Token.extendLast,
      Array.length_toList]
  · rw [dotted_appendBreak, or_right_comm, or_assoc, ← hothers]
    exact h.mem_hardBreak token

/-- Text between two words. The mark for a full stop in it is for the token that gets the text. -/
theorem addBreak (h : draft.Tells works chunks marked) {chunk : Chunk}
    (hisWord : chunk.isWord = false) :
    (draft.addBreak chunk.text).Tells works (chunks ++ [chunk]) marked := by
  unfold Draft.addBreak
  simp only [List.contains_iff_mem]
  split
  case isTrue hstop =>
    rw [markHardBreak_appendBreak]
    refine h.markHardBreak.appendBreak chunk hisWord ?_
    intro token
    rw [tokens_markHardBreak]
    simp only [hstop, and_true]
  case isFalse hstop =>
    refine h.appendBreak chunk hisWord ?_
    intro token
    simp only [hstop, and_false, or_false]

/-- Behind the first word of a work, a soft boundary is a line feed and a hard one a mark. -/
theorem cross (h : draft.Tells works chunks marked) (start : Nat) (boundary : Option Boundary) :
    (draft.cross start boundary).Tells works
      (chunks ++ if boundary = some .soft ∧ start < draft.tokens.size then [.lineFeed] else [])
      fun token => marked token
        ∨ (boundary = some .hard ∧ start < draft.tokens.size ∧ token + 1 = draft.tokens.size) := by
  unfold Draft.cross
  by_cases hword : start < draft.tokens.size
  · simp only [hword, if_true, true_and, and_true]
    match boundary with
    | none => simpa using h
    | some .soft =>
      have hsame : ∀ token, marked token ↔ marked token
          ∨ (token + 1 = draft.tokens.size ∧ '.' ∈ Chunk.lineFeed.text.toList) := by
        intro token
        simp [Chunk.lineFeed]
      simpa [Chunk.lineFeed] using h.appendBreak .lineFeed rfl hsame
    | some .hard => simpa using h.markHardBreak
  · simpa [hword] using h

theorem addChunk (h : draft.Tells works chunks marked) {chunk : Chunk}
    (hgrown : draft.addChunk analyze chunk = .ok grown) :
    grown.Tells works (chunks ++ [chunk]) marked := by
  unfold Draft.addChunk at hgrown
  split at hgrown
  case isTrue hisWord => exact h.addWord hisWord hgrown
  case isFalse hisWord =>
    cases hgrown
    exact h.addBreak (Bool.not_eq_true _ ▸ hisWord)

/-- Chunks are taken one after the other. -/
theorem addChunks (h : draft.Tells works chunks marked) {added : List Chunk}
    (hgrown : added.foldlM (Draft.addChunk analyze) draft = .ok grown) :
    grown.Tells works (chunks ++ added) marked :=
  foldlM_keeps (fun draft chunks => draft.Tells works chunks marked)
    (fun hnext htells => htells.addChunk hnext) hgrown h

end Tells

end Draft

end Concordance
