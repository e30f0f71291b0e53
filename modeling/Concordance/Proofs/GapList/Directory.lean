import Concordance.GapList.Wire
import Concordance.Proofs.Varint

/-!
# The directory of a written gap list

`TellsEntries entries written` says that bytes hold the entries of a directory, in any codes.
Reading finds exactly such bytes (`readDirectory_sound`, `readDirectory_complete`), as long as the
gap bytes of all blocks together fit 32 bits. From the numbers of bytes in the entries
`startsOf` makes the block starts, and the entries can be told from these again
(`directory_of_startsOf`).
-/

namespace Concordance.GapList

/-- The number of gap bytes that the entries of a directory announce. -/
def gapTotal (entries : List (UInt32 × UInt32)) : Nat :=
  (entries.map fun entry => entry.2.toNat).sum

@[simp] theorem gapTotal_cons (entry : UInt32 × UInt32) (entries : List (UInt32 × UInt32)) :
    gapTotal (entry :: entries) = entry.2.toNat + gapTotal entries := List.sum_cons

theorem gapTotal_append (first second : List (UInt32 × UInt32)) :
    gapTotal (first ++ second) = gapTotal first + gapTotal second := by
  rw [gapTotal, List.map_append, List.sum_append]
  rfl

/-- Bytes that tell the head and the number of gap bytes of block after block. -/
inductive TellsEntries : List (UInt32 × UInt32) → List UInt8 → Prop where
  | nil : TellsEntries [] []
  | cons {head size : UInt32} {headCode sizeCode : List UInt8} {later : List (UInt32 × UInt32)}
      {written : List UInt8} (tells_head : Varint.Tells headCode head)
      (tells_size : Varint.Tells sizeCode size) (tells_later : TellsEntries later written) :
      TellsEntries ((head, size) :: later) (headCode ++ (sizeCode ++ written))

variable {entries : List (UInt32 × UInt32)} {written : List UInt8}

/-- Every entry takes bytes. -/
theorem TellsEntries.length_le (h : TellsEntries entries written) :
    entries.length ≤ written.length := by
  induction h with
  | nil => exact Nat.le_refl _
  | cons tells_head _ _ ih =>
    have hpos := tells_head.length_pos
    simp only [List.length_cons, List.length_append]
    omega

/-- What is read as a directory is the directory that the bytes tell. -/
theorem readDirectory_sound {count before : Nat} {bytes : List UInt8} {directory : Directory}
    (hbefore : before < UInt32.size) (h : readDirectory count before bytes = .ok directory) :
    ∃ written, bytes = written ++ directory.rest ∧ TellsEntries directory.entries written
      ∧ directory.entries.length = count
      ∧ directory.gapBytes = before + gapTotal directory.entries
      ∧ directory.gapBytes < UInt32.size := by
  induction count generalizing before bytes directory with
  | zero =>
    cases h
    exact ⟨[], rfl, .nil, rfl, rfl, hbefore⟩
  | succ count ih =>
    rw [readDirectory] at h
    obtain ⟨⟨head, headUsed⟩, hhead, h⟩ := bind_eq_ok.mp h
    obtain ⟨headCode, behind, rfl, rfl, htellsHead⟩ := Varint.exists_tells_of_decode32 hhead
    simp only [List.drop_left] at h
    obtain ⟨⟨size, sizeUsed⟩, hsize, h⟩ := bind_eq_ok.mp h
    obtain ⟨sizeCode, behind, rfl, rfl, htellsSize⟩ := Varint.exists_tells_of_decode32 hsize
    simp only [List.drop_left] at h
    obtain ⟨hfit, h⟩ := guard_eq_ok.mp h
    obtain ⟨later, hlater, h⟩ := bind_eq_ok.mp h
    cases h
    obtain ⟨written, rfl, htells, hcount, htotal, hsmall⟩ := ih (Nat.lt_of_not_le hfit) hlater
    refine ⟨headCode ++ (sizeCode ++ written), ?_, .cons htellsHead htellsSize htells,
      congrArg (· + 1) hcount, ?_, hsmall⟩
    · simp only [List.append_assoc]
    · rw [gapTotal_cons, ← Nat.add_assoc]
      exact htotal

/-- Whatever tells a directory is read as it. -/
theorem readDirectory_complete (h : TellsEntries entries written) (before : Nat)
    (rest : List UInt8) (hfit : before + gapTotal entries < UInt32.size) :
    readDirectory entries.length before (written ++ rest)
      = .ok ⟨entries, before + gapTotal entries, rest⟩ := by
  induction h generalizing before with
  | nil => rfl
  | @cons head size headCode sizeCode later written tells_head tells_size _ ih =>
    rw [gapTotal_cons, ← Nat.add_assoc] at hfit
    have hguard : ¬ UInt32.size ≤ before + size.toNat :=
      Nat.not_le_of_lt (Nat.lt_of_le_of_lt (Nat.le_add_right _ _) hfit)
    rw [List.length_cons, readDirectory, List.append_assoc, List.append_assoc, tells_head]
    show (Varint.decode32 ((headCode ++ (sizeCode ++ (written ++ rest))).drop headCode.length)
      >>= _) = _
    rw [List.drop_left, tells_size]
    show (if UInt32.size ≤ before + size.toNat then _
      else readDirectory later.length (before + size.toNat)
        ((sizeCode ++ (written ++ rest)).drop sizeCode.length) >>= _) = _
    rw [if_neg hguard, List.drop_left, ih _ hfit, gapTotal_cons, ← Nat.add_assoc]
    rfl

/-! ## Block starts -/

/-- The blocks behind others start where the gap bytes of those end. -/
theorem startsOf_append (start : UInt32) (before later : List (UInt32 × UInt32)) :
    startsOf start (before ++ later)
      = startsOf start before ++ startsOf (start + UInt32.ofNat (gapTotal before)) later := by
  induction before generalizing start with
  | nil => exact congrArg (startsOf · later) (UInt32.add_zero start).symm
  | cons first before ih =>
    rw [List.cons_append, startsOf, ih, startsOf, List.cons_append, gapTotal_cons,
      UInt32.ofNat_add, UInt32.ofNat_toNat, UInt32.add_assoc]

theorem length_startsOf (start : UInt32) (entries : List (UInt32 × UInt32)) :
    (startsOf start entries).length = entries.length := by
  induction entries generalizing start with
  | nil => rfl
  | cons entry entries ih => exact congrArg (· + 1) (ih _)

/-- A block behind others starts where their gap bytes end. -/
theorem startsOf_concat (start : UInt32) (entries : List (UInt32 × UInt32))
    (entry : UInt32 × UInt32) :
    startsOf start (entries ++ [entry])
      = startsOf start entries ++ [start + UInt32.ofNat (gapTotal entries)] := by
  rw [startsOf_append]
  rfl

/-- The number of gap bytes of a block is the distance from its start to where the next one
starts, or to the end of all gap bytes. -/
theorem sub_startsOf {block : Nat} (start : UInt32) (h : block < entries.length) :
    (startsOf start entries).getD (block + 1) (start + UInt32.ofNat (gapTotal entries))
      - (startsOf start entries).getD block 0 = entries[block].2 := by
  induction entries generalizing start block with
  | nil => cases h
  | cons entry entries ih =>
    have htotal : start + UInt32.ofNat (gapTotal (entry :: entries))
        = start + entry.2 + UInt32.ofNat (gapTotal entries) := by
      rw [gapTotal_cons, UInt32.ofNat_add, UInt32.ofNat_toNat, UInt32.add_assoc]
    rw [htotal, startsOf]
    cases block with
    | succ block => exact ih (start + entry.2) (Nat.lt_of_succ_lt_succ h)
    | zero =>
      have hnext : (startsOf (start + entry.2) entries).getD 0
          (start + entry.2 + UInt32.ofNat (gapTotal entries)) = start + entry.2 := by
        cases entries with
        | nil => exact UInt32.add_zero _
        | cons next later => rfl
      rw [List.getD_cons_succ, hnext, List.getD_cons_zero, UInt32.add_comm,
        UInt32.add_sub_cancel]
      rfl

/-- The directory entries of a list: the head and the number of gap bytes of every block. -/
def directory (list : GapList) : List (UInt32 × UInt32) :=
  (List.range list.heads.size).map fun block => (list.head block, list.blockBytes block)

theorem length_directory (list : GapList) : list.directory.length = list.heads.size := by
  rw [directory, List.length_map, List.length_range]

/-- The entries of a list hold its heads. -/
theorem map_fst_directory (list : GapList) : list.directory.map (·.1) = list.heads.toList := by
  refine List.ext_getElem ?_ fun block _ hblock => ?_
  · rw [List.length_map, length_directory, Array.length_toList]
  · rw [Array.length_toList] at hblock
    simp only [directory, head, List.getElem_map, List.getElem_range, Array.getElem_toList,
      Array.getD, dif_pos hblock]
    rfl

/-- A list whose heads and block starts were made from directory entries has these entries. -/
theorem directory_of_startsOf {list : GapList} {entries : List (UInt32 × UInt32)}
    (hheads : list.heads.toList = entries.map (·.1))
    (hstarts : list.blockStarts.toList = startsOf 0 entries)
    (hgaps : list.gaps.size = gapTotal entries) : list.directory = entries := by
  have hsize : list.heads.size = entries.length := by
    rw [← Array.length_toList, hheads, List.length_map]
  refine List.ext_getElem ((length_directory list).trans hsize) ?_
  intro block hleft hblock
  have hhead : list.head block = entries[block].1 := by
    rw [head, Array.getD_eq_getD_getElem?, ← Array.getElem?_toList, hheads, List.getElem?_map,
      List.getElem?_eq_getElem hblock]
    rfl
  have hbytes : list.blockBytes block = entries[block].2 := by
    have hsub := sub_startsOf 0 hblock
    rw [UInt32.zero_add, ← hgaps, ← hstarts] at hsub
    rw [← hsub, blockBytes, blockStop, blockStart, Array.getD_eq_getD_getElem?,
      Array.getD_eq_getD_getElem?, ← Array.getElem?_toList, ← Array.getElem?_toList,
      List.getD_eq_getElem?_getD, List.getD_eq_getElem?_getD]
  rw [show list.directory[block] = (list.head block, list.blockBytes block) by
    simp [directory], hhead, hbytes]

end Concordance.GapList
