import Mathlib.Data.List.SplitBy
import Concordance.Text.Chunk

/-!
# The text of chunks

Chunks keep their text: the chunks of a text join to it (`LawfulTokenizer`), as they do when they
are cut by break characters. What stands before the first word of chunks is their opening.

Rows of text follow each other, and some of them start on a new line. A line feed between words
changes neither the words nor what stands before the first of them (`Tokenizer.alike_lines`), as
long as there is none before the first word.
-/

namespace Concordance

namespace Chunk

/-- The text that chunks make up. -/
def join (chunks : List Chunk) : String := String.join (chunks.map (·.text))

/-- The chunks before the first word. -/
def opening (chunks : List Chunk) : List Chunk := chunks.takeWhile (!·.isWord)

/-- The chunk that starts a new line. -/
def lineFeed : Chunk := ⟨"\n", false⟩

variable {chunk : Chunk} {chunks : List Chunk}

@[simp] theorem join_nil : join [] = "" := String.join_nil

@[simp] theorem join_cons (chunk : Chunk) (chunks : List Chunk) :
    join (chunk :: chunks) = chunk.text ++ join chunks := String.join_cons

@[simp] theorem join_append (first second : List Chunk) :
    join (first ++ second) = join first ++ join second := by
  rw [join, List.map_append, String.join_append, join, join]

@[simp] theorem opening_nil : opening [] = [] := rfl

theorem opening_cons_word (h : chunk.isWord = true) (chunks : List Chunk) :
    opening (chunk :: chunks) = [] :=
  List.takeWhile_cons_of_neg (by simp [h])

theorem opening_cons_break (h : chunk.isWord = false) (chunks : List Chunk) :
    opening (chunk :: chunks) = chunk :: opening chunks :=
  List.takeWhile_cons_of_pos (by simp [h])

/-- Chunks without a word all stand before the first word. -/
theorem opening_of_not_any (h : chunks.any (·.isWord) = false) : opening chunks = chunks := by
  induction chunks with
  | nil => rfl
  | cons chunk chunks ih =>
    rw [List.any_cons, Bool.or_eq_false_iff] at h
    rw [opening_cons_break h.1, ih h.2]

/-- What stands before the first word does not depend on what follows it. -/
theorem opening_append_of_any (h : chunks.any (·.isWord) = true) (later : List Chunk) :
    opening (chunks ++ later) = opening chunks := by
  induction chunks with
  | nil => cases h
  | cons chunk chunks ih =>
    cases hword : chunk.isWord with
    | true => rw [List.cons_append, opening_cons_word hword, opening_cons_word hword]
    | false =>
      rw [List.any_cons, hword, Bool.false_or] at h
      rw [List.cons_append, opening_cons_break hword, opening_cons_break hword, ih h]

theorem opening_append_of_not_any (h : chunks.any (·.isWord) = false) (later : List Chunk) :
    opening (chunks ++ later) = chunks ++ opening later := by
  induction chunks with
  | nil => rfl
  | cons chunk chunks ih =>
    rw [List.any_cons, Bool.or_eq_false_iff] at h
    rw [List.cons_append, opening_cons_break h.1, ih h.2, List.cons_append]

/-- Two lists of chunks have the same words and the same chunks before the first word. -/
structure Alike (first second : List Chunk) : Prop where
  /-- The words are the same. -/
  words : first.filter (·.isWord) = second.filter (·.isWord)
  /-- What stands before the first word is the same. -/
  opening : Chunk.opening first = Chunk.opening second

namespace Alike

variable {first second : List Chunk}

theorem refl (chunks : List Chunk) : Alike chunks chunks := ⟨rfl, rfl⟩

/-- Lists with the same words have a word together. -/
theorem any_eq (h : Alike first second) : first.any (·.isWord) = second.any (·.isWord) := by
  have hany := congrArg (·.any (·.isWord)) h.words
  simpa only [List.any_filter, Bool.and_self] using hany

theorem append (h : Alike first second) {later otherLater : List Chunk}
    (hlater : Alike later otherLater) : Alike (first ++ later) (second ++ otherLater) := by
  refine ⟨by rw [List.filter_append, List.filter_append, h.words, hlater.words], ?_⟩
  have hsecond := h.any_eq
  cases hfirst : first.any (·.isWord) with
  | true =>
    rw [opening_append_of_any hfirst, opening_append_of_any (hsecond ▸ hfirst), h.opening]
  | false =>
    -- without a word the two lists are the same altogether
    have hsame : first = second := by
      rw [← opening_of_not_any hfirst, h.opening, opening_of_not_any (hsecond ▸ hfirst)]
    rw [opening_append_of_not_any hfirst, opening_append_of_not_any (hsecond ▸ hfirst),
      hlater.opening, hsame]

/-- Behind a word there may be more text between words. -/
theorem concat_break (h : Alike first second) (hword : second.any (·.isWord) = true)
    (hbreak : chunk.isWord = false) : Alike (first ++ [chunk]) second := by
  refine ⟨?_, ?_⟩
  · rw [List.filter_append, List.filter_cons_of_neg (by simp [hbreak]), List.filter_nil,
      List.append_nil, h.words]
  · rw [opening_append_of_any (h.any_eq.trans hword), h.opening]

end Alike

end Chunk

/-- A tokenizer whose chunks keep the text. -/
class LawfulTokenizer (tokenizer : Tokenizer) : Prop where
  /-- The chunks of a text join to it. -/
  join_chunks : ∀ text, Chunk.join (tokenizer.chunks text) = text

instance (breaks : BreakSet) : LawfulTokenizer breaks.tokenizer where
  join_chunks text := by
    have hruns : ∀ runs : List (List Char),
        Chunk.join (runs.map breaks.chunkOfRun) = String.ofList runs.flatten := by
      intro runs
      induction runs with
      | nil => rfl
      | cons run runs ih =>
        rw [List.map_cons, Chunk.join_cons, ih, List.flatten_cons, String.ofList_append]
        rfl
    show Chunk.join (breaks.chunks text) = text
    rw [BreakSet.chunks, hruns, List.flatten_splitBy, String.ofList_toList]

namespace Tokenizer

variable (tokenizer : Tokenizer)

/-! ## Lines -/

variable (starts : Nat → Bool)

/-- The chunks of rows, with a line feed before each row that starts on a new line. -/
def lines (rows : List String) : List Chunk :=
  (rows.mapIdx fun index row =>
    (if starts index then [Chunk.lineFeed] else []) ++ tokenizer.chunks row).flatten

theorem lines_concat (rows : List String) (row : String) :
    tokenizer.lines starts (rows ++ [row])
      = tokenizer.lines starts rows ++ (if starts rows.length then [Chunk.lineFeed] else [])
        ++ tokenizer.chunks row := by
  rw [lines, List.mapIdx_concat, List.flatten_append, List.flatten_cons, List.flatten_nil,
    List.append_nil, lines, List.append_assoc]

/-- Lines join to the rows with a line feed before each that starts on a new line. -/
theorem join_lines [LawfulTokenizer tokenizer] (rows : List String) :
    Chunk.join (tokenizer.lines starts rows)
      = String.join (rows.mapIdx fun index row => (if starts index then "\n" else "") ++ row) := by
  induction rows using List.reverseRecOn with
  | nil => rfl
  | append_singleton rows row ih =>
    have hfeed : Chunk.join (if starts rows.length then [Chunk.lineFeed] else [])
        = if starts rows.length then "\n" else "" := by
      split <;> rfl
    rw [lines_concat, Chunk.join_append, Chunk.join_append, ih, hfeed, LawfulTokenizer.join_chunks,
      List.mapIdx_concat, String.join_append, String.join_cons, String.join_nil,
      String.append_empty, String.append_assoc]

/-- On lines, rows have the same words as one behind the other, and the same text before the first
word, if no row starts on a new line before there was a word. -/
theorem alike_lines {rows : List String}
    (hstarts : ∀ index < rows.length, starts index = true →
      ((rows.take index).flatMap tokenizer.chunks).any (·.isWord) = true) :
    Chunk.Alike (tokenizer.lines starts rows) (rows.flatMap tokenizer.chunks) := by
  induction rows using List.reverseRecOn with
  | nil => exact .refl []
  | append_singleton rows row ih =>
    have hbefore : Chunk.Alike (tokenizer.lines starts rows) (rows.flatMap tokenizer.chunks) := by
      refine ih ?_
      intro index hindex hstart
      have hword := hstarts index (by simp; omega) hstart
      rwa [List.take_append_of_le_length (Nat.le_of_lt hindex)] at hword
    rw [lines_concat, List.flatMap_append, List.flatMap_singleton]
    refine Chunk.Alike.append ?_ (.refl _)
    cases hstart : starts rows.length with
    | false => simpa using hbefore
    | true =>
      have hword := hstarts rows.length (by simp) hstart
      rw [List.take_left] at hword
      exact hbefore.concat_break hword rfl

end Tokenizer

end Concordance
