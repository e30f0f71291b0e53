import Concordance.Proofs.Ascending
import Concordance.Proofs.Search
import Concordance.Proofs.Text.Chunk
import Concordance.Proofs.Text.Slice
import Concordance.Text.Scan

/-!
# Cutting a text into chunks

There is one way to cut a text into words and the text between them (`Chunk.Cuts`), and both the
runs of characters of one kind and the scan that reads the text once arrive at it
(`BreakSet.chunks_cut_in_one_way`). The scan counts in bytes, but never cuts a character in two.

- `Chunk.Cuts.chunks_eq`: whatever cuts a text is made of its runs.
- `Scan.Reads`: what a scan has read is cut into its chunks and the one at hand. Every character
  keeps this (`Scan.Reads.read`).
-/

namespace Concordance

/-! ## Looking characters up -/

/-- A binary search finds the characters that are there. -/
theorem findsIn_iff {ordered : Array Char} (hasc : ordered.toList.Pairwise (· < ·)) (c : Char) :
    findsIn ordered c = true ↔ c ∈ ordered := by
  unfold findsIn
  rw [beq_iff_eq]
  constructor
  · exact Array.mem_of_getElem?
  · intro hmem
    obtain ⟨index, hindex, rfl⟩ := Array.mem_iff_getElem.mp hmem
    have hself : partitionPoint ordered (· < ordered[index]) = index :=
      partitionPoint_of_ascending (fun _ _ => Char.lt_asymm) hasc hindex
    rw [hself, Array.getElem?_eq_getElem hindex]

theorem BreakSet.findsIn_ordered (breaks : BreakSet) (c : Char) :
    findsIn breaks.ordered c = breaks.isBreak c := by
  have hasc : breaks.ordered.toList.Pairwise (· < ·) := ascending_pairwise _
  rw [Bool.eq_iff_iff, findsIn_iff hasc, BreakSet.isBreak, List.contains_iff_mem, BreakSet.ordered,
    List.mem_toArray, mem_ascending]

/-! ## Cuts -/

namespace Chunk

/-- Chunks cut a text into words and the text between them: none is empty, they join to the text,
words and other chunks alternate, and the characters that separate words are just those of the other
chunks. -/
structure Cuts (marks : List Char) (text : String) (chunks : List Chunk) : Prop where
  join_eq : join chunks = text
  ne_empty : ∀ chunk ∈ chunks, chunk.text ≠ ""
  alternates : chunks.IsChain fun chunk next => chunk.isWord ≠ next.isWord
  mem_marks_iff : ∀ chunk ∈ chunks, ∀ c ∈ chunk.text.toList, c ∈ marks ↔ chunk.isWord = false

namespace Cuts

variable {breaks : BreakSet} {text : String} {chunks : List Chunk}

theorem isBreak_eq (h : Cuts breaks.chars text chunks) {chunk : Chunk} (hchunk : chunk ∈ chunks)
    {c : Char} (hc : c ∈ chunk.text.toList) : breaks.isBreak c = !chunk.isWord := by
  rw [Bool.eq_iff_iff, BreakSet.isBreak, List.contains_iff_mem, h.mem_marks_iff chunk hchunk c hc,
    Bool.not_eq_true']

/-- A chunk is what the run of its characters makes. -/
theorem chunkOfRun_eq (h : Cuts breaks.chars text chunks) {chunk : Chunk}
    (hchunk : chunk ∈ chunks) : breaks.chunkOfRun chunk.text.toList = chunk := by
  have hany : chunk.text.toList.any breaks.isBreak = !chunk.isWord := by
    obtain ⟨c, hc⟩ := List.exists_mem_of_ne_nil _ (mt String.toList_eq_nil_iff.mp
      (h.ne_empty chunk hchunk))
    cases hword : chunk.isWord with
    | true =>
      refine List.any_eq_false.mpr fun other hother => ?_
      rw [h.isBreak_eq hchunk hother, hword]
      decide
    | false =>
      refine List.any_eq_true.mpr ⟨c, hc, ?_⟩
      rw [h.isBreak_eq hchunk hc, hword]
      rfl
  rw [BreakSet.chunkOfRun, hany, String.ofList_toList, Bool.not_not]

/-- Whatever cuts a text is made of the runs of characters of one kind. -/
theorem chunks_eq (h : Cuts breaks.chars text chunks) : breaks.chunks text = chunks := by
  have hruns : (text.toList.splitBy fun a b => breaks.isBreak a == breaks.isBreak b)
      = chunks.map (·.text.toList) := by
    refine List.splitBy_eq_iff.mpr ⟨?_, ?_, ?_, ?_⟩
    · rw [← h.join_eq, join, String.toList_join, List.flatMap_map, List.flatMap_def]
    · intro hnil
      obtain ⟨chunk, hchunk, hempty⟩ := List.mem_map.mp hnil
      exact h.ne_empty chunk hchunk (String.toList_eq_nil_iff.mp hempty)
    · intro run hrun
      obtain ⟨chunk, hchunk, rfl⟩ := List.mem_map.mp hrun
      refine (List.pairwise_of_forall_mem_list fun a ha b hb => ?_).isChain
      rw [h.isBreak_eq hchunk ha, h.isBreak_eq hchunk hb]
      exact beq_self_eq_true _
    · refine (List.isChain_map _).mpr (h.alternates.imp_of_mem_imp ?_)
      intro chunk next hchunk hnext hne
      have hsome := mt String.toList_eq_nil_iff.mp (h.ne_empty chunk hchunk)
      have hnextSome := mt String.toList_eq_nil_iff.mp (h.ne_empty next hnext)
      refine ⟨hsome, hnextSome, ?_⟩
      rw [h.isBreak_eq hchunk (List.getLast_mem hsome),
        h.isBreak_eq hnext (List.head_mem hnextSome)]
      simpa using hne
  rw [BreakSet.chunks, hruns, List.map_map]
  exact (List.map_congr_left fun chunk hchunk => h.chunkOfRun_eq hchunk).trans (List.map_id _)

/-! ### Character by character -/

variable {marks : List Char} {run : String} {inWord : Bool} {c : Char}

theorem empty : Cuts marks "" [] where
  join_eq := rfl
  ne_empty _ hchunk := absurd hchunk List.not_mem_nil
  alternates := .nil
  mem_marks_iff _ hchunk := absurd hchunk List.not_mem_nil

/-- A character of the other kind than the last chunk starts a new one. -/
theorem start (h : Cuts marks text chunks) (hc : c ∈ marks ↔ inWord = false)
    (hlast : ∀ last ∈ chunks.getLast?, last.isWord ≠ inWord) :
    Cuts marks (text.push c) (chunks ++ [⟨String.singleton c, inWord⟩]) := by
  refine ⟨?_, ?_, ?_, ?_⟩
  · rw [join_append, h.join_eq, join_cons, join_nil, String.append_empty, String.push_eq_append]
  · intro chunk hchunk
    rcases List.mem_append.mp hchunk with hbefore | hnew
    · exact h.ne_empty chunk hbefore
    · rw [List.mem_singleton.mp hnew]
      exact String.singleton_ne_empty
  · refine h.alternates.append (.singleton _) fun last hmem next hnext => ?_
    cases hnext
    exact hlast last hmem
  · intro chunk hchunk other hother
    rcases List.mem_append.mp hchunk with hbefore | hnew
    · exact h.mem_marks_iff chunk hbefore other hother
    · obtain rfl := List.mem_singleton.mp hnew
      have hother : other ∈ (String.singleton c).toList := hother
      rw [String.toList_singleton, List.mem_singleton] at hother
      rw [hother]
      exact hc

/-- A character of the kind of the last chunk goes to its end. -/
theorem extend (h : Cuts marks text (chunks ++ [⟨run, inWord⟩])) (hc : c ∈ marks ↔ inWord = false) :
    Cuts marks (text.push c) (chunks ++ [⟨run.push c, inWord⟩]) := by
  refine ⟨?_, ?_, ?_, ?_⟩
  · rw [← h.join_eq]
    simp only [join_append, join_cons, join_nil, String.append_empty, String.push_eq_append,
      String.append_assoc]
  · intro chunk hchunk
    rcases List.mem_append.mp hchunk with hbefore | hnew
    · exact h.ne_empty chunk (List.mem_append_left _ hbefore)
    · rw [List.mem_singleton.mp hnew]
      exact String.push_ne_empty
  · refine h.alternates.left_of_append.append (.singleton _) fun last hlast next hnext => ?_
    cases hnext
    exact (List.isChain_append.mp h.alternates).2.2 last hlast ⟨run, inWord⟩ rfl
  · intro chunk hchunk other hother
    rcases List.mem_append.mp hchunk with hbefore | hnew
    · exact h.mem_marks_iff chunk (List.mem_append_left _ hbefore) other hother
    · obtain rfl := List.mem_singleton.mp hnew
      have hother : other ∈ (run.push c).toList := hother
      rw [String.toList_push] at hother
      rcases List.mem_append.mp hother with hold | hlast
      · exact h.mem_marks_iff _ (List.mem_append_right _ (List.mem_singleton_self _)) other hold
      · rw [List.mem_singleton.mp hlast]
        exact hc

end Cuts

end Chunk

/-! ## Scans -/

namespace Scan

/-- What a scan has read is cut into the chunks that are cut out and the one at hand, and the places
of the scan are the sizes of these. -/
structure Reads (marks : List Char) (before run : String) (scan : Scan) : Prop where
  cuts : Chunk.Cuts marks before (scan.chunks.toList ++ [⟨run, scan.inWord⟩])
  start_eq : scan.start = (Chunk.join scan.chunks.toList).utf8ByteSize
  place_eq : scan.place = before.utf8ByteSize

namespace Reads

variable {marks : List Char} {isWord : Char → Bool} {text before run : String} {scan : Scan}

/-- The chunk at hand is behind those that are cut out. -/
theorem before_eq (h : scan.Reads marks before run) :
    before = Chunk.join scan.chunks.toList ++ run := by
  rw [← h.cuts.join_eq, Chunk.join_append, Chunk.join_cons, Chunk.join_nil, String.append_empty]

/-- The chunk at hand can be cut out where it stops. -/
theorem cut_eq (h : scan.Reads marks before run) (after : String) :
    scan.cut (before ++ after) before.utf8ByteSize
      = some (scan.chunks.push ⟨run, scan.inWord⟩) := by
  have hslice := sliceBytes?_append (Chunk.join scan.chunks.toList) run after
  rw [← String.utf8ByteSize_append, ← h.before_eq, ← h.start_eq] at hslice
  rw [cut, hslice, Option.map_some]

/-- One more character is read. -/
theorem read (h : scan.Reads marks before run) (hisWord : ∀ c, isWord c = false ↔ c ∈ marks)
    (c : Char) (after : String) :
    ∃ next rest, scan.read isWord (before ++ after) c = some next
      ∧ next.Reads marks (before.push c) rest := by
  have hc : c ∈ marks ↔ isWord c = false := (hisWord c).symm
  unfold Scan.read
  by_cases hsame : isWord c = scan.inWord
  · refine ⟨_, run.push c, if_pos hsame, (h.cuts.extend (hsame ▸ hc)), h.start_eq, ?_⟩
    rw [String.utf8ByteSize_push, ← h.place_eq]
  · refine ⟨⟨scan.chunks.push ⟨run, scan.inWord⟩, scan.place, scan.place + c.utf8Size, isWord c⟩,
      String.singleton c, ?_, ?_, ?_, ?_⟩
    · rw [if_neg hsame, h.place_eq, h.cut_eq, Option.map_some]
    · rw [Array.toList_push]
      refine h.cuts.start hc fun last hlast => ?_
      rw [List.getLast?_concat, Option.mem_some_iff] at hlast
      rw [← hlast]
      exact Ne.symm hsame
    · rw [Array.toList_push, Chunk.join_append, Chunk.join_cons, Chunk.join_nil,
        String.append_empty, ← h.before_eq, h.place_eq]
    · rw [String.utf8ByteSize_push, ← h.place_eq]

/-- The rest of a text is read. -/
theorem readAll (h : scan.Reads marks before run) (hisWord : ∀ c, isWord c = false ↔ c ∈ marks)
    (later : List Char) :
    ∃ last rest, later.foldlM (Scan.read isWord (before ++ String.ofList later)) scan = some last
      ∧ last.Reads marks (before ++ String.ofList later) rest := by
  induction later generalizing before run scan with
  | nil =>
    refine ⟨scan, run, rfl, ?_⟩
    rw [String.ofList_nil, String.append_empty]
    exact h
  | cons c later ih =>
    obtain ⟨next, rest, hread, hnext⟩ := h.read hisWord c (String.ofList (c :: later))
    have hsplit : before ++ String.ofList (c :: later) = before.push c ++ String.ofList later := by
      rw [String.ofList_cons, String.push_eq_append, String.append_assoc]
    obtain ⟨last, final, hfold, hlast⟩ := ih hnext
    rw [← hsplit] at hfold hlast
    refine ⟨last, final, ?_, hlast⟩
    rw [List.foldlM_cons, hread]
    exact hfold

/-- At the end of the text the chunk at hand is cut out as well. -/
theorem finish_eq (h : scan.Reads marks text run) :
    scan.finish text = some (scan.chunks.push ⟨run, scan.inWord⟩) := by
  have hrun : run ≠ "" := h.cuts.ne_empty ⟨run, scan.inWord⟩
    (List.mem_append_right _ (List.mem_singleton_self _))
  have hsize : run.utf8ByteSize ≠ 0 := mt String.utf8ByteSize_eq_zero_iff.mp hrun
  have hstart : scan.start < text.utf8ByteSize := by
    rw [h.start_eq, h.before_eq, String.utf8ByteSize_append]
    omega
  have hcut := h.cut_eq ""
  rw [String.append_empty] at hcut
  rw [finish, if_pos hstart, hcut]

end Reads

end Scan

namespace BreakSet

/-- A scan never cuts a character in two, and its chunks cut the text. -/
theorem exists_scan (breaks : BreakSet) (text : String) :
    ∃ chunks, breaks.scan text = some chunks ∧ Chunk.Cuts breaks.chars text chunks := by
  have hisWord : ∀ c, (!findsIn breaks.ordered c) = false ↔ c ∈ breaks.chars := by
    intro c
    rw [findsIn_ordered, Bool.not_eq_false', isBreak, List.contains_iff_mem]
  unfold scan
  cases hchars : text.toList with
  | nil =>
    rw [String.toList_eq_nil_iff] at hchars
    exact ⟨[], rfl, hchars ▸ .empty⟩
  | cons first later =>
    have htext : text = String.singleton first ++ String.ofList later := by
      rw [← String.ofList_cons, ← hchars, String.ofList_toList]
    -- the first character starts the first chunk
    have hfirst : (⟨#[], 0, first.utf8Size, !findsIn breaks.ordered first⟩ : Scan).Reads
        breaks.chars (String.singleton first) (String.singleton first) :=
      ⟨Chunk.Cuts.empty.start (hisWord first).symm nofun, rfl,
        String.utf8ByteSize_singleton.symm⟩
    obtain ⟨last, run, hfold, hlast⟩ := hfirst.readAll hisWord later
    rw [← htext] at hfold hlast
    refine ⟨_, ?_, hlast.cuts⟩
    have hread : Scan.read (fun c => !findsIn breaks.ordered c) text
        ⟨#[], 0, 0, !findsIn breaks.ordered first⟩ first
          = some ⟨#[], 0, first.utf8Size, !findsIn breaks.ordered first⟩ := by
      rw [Scan.read, if_pos rfl, Nat.zero_add]
    simp only [List.foldlM_cons, hread]
    simp only [hfold, hlast.finish_eq, Option.bind_eq_bind, Option.bind_some, Array.toList_push]
    rfl

/-- There is one way to cut a text at break characters, given in any order and as often as one
likes: into the runs of characters of one kind. The scan arrives at the same chunks. The empty text
has none. -/
theorem chunks_cut_in_one_way (marks text : String) :
    let breaks := ofText marks
    (∀ chunks, breaks.chunks text = chunks ↔ Chunk.Cuts marks.toList text chunks)
      ∧ breaks.scan text = some (breaks.chunks text)
      ∧ breaks.chunks "" = [] := by
  intro breaks
  obtain ⟨found, hscan, hcuts⟩ := breaks.exists_scan text
  have hfound : breaks.chunks text = found := hcuts.chunks_eq
  refine ⟨fun chunks => ⟨?_, fun h => Chunk.Cuts.chunks_eq h⟩, hfound ▸ hscan, ?_⟩
  · rintro rfl
    exact hfound ▸ hcuts
  · exact Chunk.Cuts.empty.chunks_eq

example : BreakSet.default.scan "rēgīna—poëta"
    = some [⟨"rēgīna", true⟩, ⟨"—", false⟩, ⟨"poëta", true⟩] := by
  cbv

end BreakSet

end Concordance
