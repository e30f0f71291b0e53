import Concordance.Proofs.GapList.Directory
import Concordance.Proofs.GapList.Ranges

/-!
# What checking gap bytes establishes

`checkBlocks` reads the gaps of block after block as a cursor will, but within the bytes of each
block. Going through blocks, it lays out a list: a block that passes adds its head and its gaps to
the layout of the list before it (`LaidOut.readGaps_sound`, `LaidOut.checkBlocks_sound`). The other
way round, the blocks of every laid out list pass (`LaidOut.readGaps_complete`,
`LaidOut.checkBlocks_complete`).
-/

namespace Concordance.GapList

/-! ## Lists that grow by blocks -/

theorem appendList_append {α : Type} (items : Array α) (first second : List α) :
    items ++ (first ++ second) = items ++ first ++ second := by
  refine Array.toList_inj.mp ?_
  simp only [Array.toList_appendList, List.append_assoc]

theorem size_appendList {α : Type} (items : Array α) (more : List α) :
    (items ++ more).size = items.size + more.length := by
  rw [← Array.length_toList, Array.toList_appendList, List.length_append, Array.length_toList]

/-- Appends blocks to a list: `length` members with the heads and gap bytes of directory entries. -/
def extend (list : GapList) (length : Nat) (entries : List (UInt32 × UInt32))
    (gaps : List UInt8) (last : Option UInt32) : GapList :=
  { length := list.length + UInt32.ofNat length
    heads := list.heads ++ entries.map (·.1)
    blockStarts := list.blockStarts ++ startsOf (UInt32.ofNat list.gaps.size) entries
    gaps := list.gaps ++ gaps
    last }

theorem pushGaps_zero {list : GapList} {last : UInt32} (h : list.last = some last) :
    list.pushGaps 0 [] last = list := by
  rw [pushGaps, ← h, Array.appendList_nil, show UInt32.ofNat 0 = 0 from rfl, UInt32.add_zero]

theorem pushGaps_pushGaps (list : GapList) (count more : Nat) (bytes others : List UInt8)
    (value last : UInt32) :
    (list.pushGaps count bytes value).pushGaps more others last
      = list.pushGaps (count + more) (bytes ++ others) last := by
  rw [pushGaps, pushGaps, pushGaps, appendList_append, UInt32.ofNat_add, UInt32.add_assoc]

theorem size_pushGaps (list : GapList) (count : Nat) (bytes : List UInt8) (last : UInt32) :
    (list.pushGaps count bytes last).gaps.size = list.gaps.size + bytes.length :=
  size_appendList _ _

theorem extend_nil (list : GapList) : list.extend 0 [] [] list.last = list := by
  rw [extend, startsOf, List.map_nil, Array.appendList_nil, Array.appendList_nil,
    Array.appendList_nil, show UInt32.ofNat 0 = 0 from rfl, UInt32.add_zero]

/-- What is appended to the empty list is all there is. -/
theorem extend_empty (length : UInt32) (entries : List (UInt32 × UInt32)) (gaps : List UInt8)
    (last : Option UInt32) :
    empty.extend length.toNat entries gaps last
      = { length
          heads := (entries.map (·.1)).toArray
          blockStarts := (startsOf 0 entries).toArray
          gaps := gaps.toArray
          last } := by
  have hnew {α : Type} (more : List α) : (#[] : Array α) ++ more = more.toArray :=
    Array.toList_inj.mp Array.toList_appendList
  simp only [extend, empty, hnew, UInt32.ofNat_toNat, UInt32.zero_add]
  rfl

/-- A block and those behind it, one after the other or together. -/
theorem extend_pushGaps (list : GapList) {length : Nat} (hlength : 0 < length) (head size : UInt32)
    (later : List (UInt32 × UInt32)) {gaps : List UInt8} (hsize : size.toNat ≤ gaps.length)
    (value : UInt32) (final : Option UInt32) :
    ((list.pushHead head).pushGaps (min length blockLength - 1) (gaps.take size.toNat) value).extend
        (length - blockLength) later (gaps.drop size.toNat) final
      = list.extend length ((head, size) :: later) gaps final := by
  have hmembers : list.length + 1 + UInt32.ofNat (min length blockLength - 1)
      + UInt32.ofNat (length - blockLength) = list.length + UInt32.ofNat length := by
    have hsum : 1 + (min length blockLength - 1) + (length - blockLength) = length := by
      unfold blockLength
      omega
    rw [UInt32.add_assoc, UInt32.add_assoc, ← UInt32.add_assoc 1, show (1 : UInt32) = UInt32.ofNat 1
      from rfl, ← UInt32.ofNat_add, ← UInt32.ofNat_add, hsum]
  have hstart : UInt32.ofNat (list.gaps.size + (gaps.take size.toNat).length)
      = UInt32.ofNat list.gaps.size + size := by
    rw [List.length_take, Nat.min_eq_left hsize, UInt32.ofNat_add, UInt32.ofNat_toNat]
  simp only [extend, pushGaps, pushHead, hmembers, size_appendList, hstart, startsOf,
    List.map_cons, Array.appendList_cons, ← appendList_append, List.take_append_drop]

/-! ## Blocks -/

/-- Of some blocks all but the last are full. -/
theorem blocksFor_sub {length later : Nat} (h : later + 1 = blocksFor length) :
    0 < length ∧ later = blocksFor (length - blockLength)
      ∧ (0 < later → blockLength ≤ length) := by
  unfold blocksFor blockLength at h ⊢
  omega

/-- A block ends behind its members. -/
theorem block_end {length block : Nat} (h : block * blockLength < length) :
    min ((block + 1) * blockLength) length
      = block * blockLength + min (length - block * blockLength) blockLength := by
  unfold blockLength at h ⊢
  omega

/-- The gap bytes of a block come before those of the blocks behind it. -/
theorem gapsFrom_block (code : Nat → List UInt8) (length block : Nat) :
    gapsFrom code (block * blockLength) (length - block * blockLength)
      = gapsFrom code (block * blockLength) (min (length - block * blockLength) blockLength)
        ++ gapsFrom code ((block + 1) * blockLength) (length - (block + 1) * blockLength) := by
  rcases Nat.lt_or_ge ((block + 1) * blockLength) length with hlt | hge
  · have hsplit := gapsFrom_append code (block * blockLength) blockLength
      (length - (block + 1) * blockLength)
    rw [← Nat.succ_mul, show blockLength + (length - (block + 1) * blockLength)
      = length - block * blockLength by unfold blockLength at hlt ⊢; omega] at hsplit
    rw [hsplit, Nat.min_eq_right (by unfold blockLength at hlt ⊢; omega)]
  · rw [Nat.sub_eq_zero_of_le hge, gapsFrom_zero, List.append_nil,
      Nat.min_eq_left (by unfold blockLength at hge ⊢; omega)]

/-- The last one of the first members. -/
theorem getLast?_take {members : List UInt32} {count : Nat} (hpos : 0 < count)
    (hcount : count ≤ members.length) :
    (members.take count).getLast? = some (members.getD (count - 1) 0) := by
  rw [List.getLast?_eq_getElem?, List.length_take, Nat.min_eq_left hcount, List.getElem?_take,
    if_pos (by omega), List.getD_eq_getElem?_getD, List.getElem?_eq_getElem (by omega)]
  rfl

namespace LaidOut

variable {list : GapList} {members : List UInt32} {code : Nat → List UInt8}

/-! ## What passes is laid out -/

/-- The codes of the members with bytes for one more behind them. -/
theorem update (h : LaidOut list members code) (bytes : List UInt8) :
    LaidOut list members (Function.update code members.length bytes) :=
  h.congr _ fun _ hindex => Function.update_of_ne (Nat.ne_of_lt hindex) _ _

/-- Gaps that could be read lead to greater members. -/
theorem readGaps_sound {count : Nat} {value final : UInt32} {bytes left : List UInt8}
    (h : LaidOut list members code) (hroom : members.length + count < UInt32.size)
    (hlast : members.getLast? = some value)
    (hinside : ∀ index, members.length ≤ index → index < members.length + count →
      index % blockLength ≠ 0)
    (hread : readGaps count value bytes = .ok (final, left)) :
    ∃ used grown codes, bytes = used ++ left ∧ grown.length = members.length + count
      ∧ LaidOut (list.pushGaps count used final) grown codes := by
  induction count generalizing list members code value bytes with
  | zero =>
    cases hread
    refine ⟨[], members, code, rfl, rfl, ?_⟩
    rw [pushGaps_zero (h.last.trans hlast)]
    exact h
  | succ count ih =>
    rw [readGaps] at hread
    obtain ⟨⟨gap, size⟩, hgap, hread⟩ := bind_eq_ok.mp hread
    obtain ⟨bytes, rest, rfl, rfl, htells⟩ := Varint.exists_tells_of_decode32 hgap
    obtain ⟨hpos, hread⟩ := guard_eq_ok.mp hread
    obtain ⟨hfits, hread⟩ := guard_eq_ok.mp hread
    rw [List.drop_left] at hread
    have hnext : value < value + gap := by
      have hgap : 0 < gap.toNat := Nat.pos_of_ne_zero fun hzero => hpos (UInt32.toNat_inj.mp hzero)
      rw [UInt32.lt_iff_toNat_lt, UInt32.toNat_add, Nat.mod_eq_of_lt (Nat.lt_of_not_le hfits)]
      omega
    have hbelow : ∀ member ∈ members, member < value + gap := by
      intro member hmember
      exact UInt32.lt_of_le_of_lt (le_last_of_mem h.ascending hlast hmember) hnext
    have hcode : Varint.Tells (Function.update code members.length bytes members.length)
        (value + gap - value) := by
      rw [Function.update_self, UInt32.add_comm, UInt32.add_sub_cancel]
      exact htells
    have hpush := (h.update bytes).pushCode hlast hbelow (by omega)
      (hinside _ (Nat.le_refl _) (by omega)) hcode
    have hlength : (members ++ [value + gap]).length + count = members.length + (count + 1) := by
      rw [List.length_append, List.length_singleton]
      omega
    rw [Function.update_self] at hpush
    obtain ⟨used, grown, codes, rfl, hcount, hgrown⟩ :=
      ih hpush (by rw [hlength]; exact hroom) List.getLast?_concat
        (fun index hle hlt => hinside index (by simp at hle; omega) (by omega)) hread
    refine ⟨bytes ++ used, grown, codes, (List.append_assoc _ _ _).symm, hcount.trans hlength, ?_⟩
    rw [Nat.add_comm count, ← pushGaps_pushGaps]
    exact hgrown

/-- A head that the check lets pass is greater than all members before it. -/
theorem lt_of_not_any (h : LaidOut list members code) {head : UInt32}
    (habove : ¬ list.last.any (head ≤ ·) = true) : ∀ member ∈ members, member < head := by
  intro member hmember
  rw [h.last] at habove
  cases hlast : members.getLast? with
  | none =>
    rw [List.getLast?_eq_none_iff.mp hlast] at hmember
    cases hmember
  | some last =>
    rw [hlast, Option.any_some, decide_eq_true_iff, UInt32.not_le] at habove
    exact UInt32.lt_of_le_of_lt (le_last_of_mem h.ascending hlast hmember) habove

/-- A block whose gaps could be read, with no bytes left, adds its members. -/
theorem pushBlock (h : LaidOut list members code) {head : UInt32}
    (hbelow : ∀ member ∈ members, member < head) (hfirst : members.length % blockLength = 0)
    (hfit : list.gaps.size < UInt32.size) {count : Nat} (hcount : count < blockLength)
    (hroom : members.length + 1 + count < UInt32.size) {bytes : List UInt8} {value : UInt32}
    (hread : readGaps count head bytes = .ok (value, [])) :
    ∃ grown codes, grown.length = members.length + 1 + count
      ∧ LaidOut ((list.pushHead head).pushGaps count bytes value) grown codes := by
  have hhead := (h.update []).pushHead hbelow (by omega) hfirst (Function.update_self _ _ _) hfit
  have hlength : (members ++ [head]).length = members.length + 1 := List.length_append
  have hinside : ∀ index, (members ++ [head]).length ≤ index →
      index < (members ++ [head]).length + count → index % blockLength ≠ 0 := by
    intro index hle hlt
    rw [hlength] at hle hlt
    unfold blockLength at hfirst hcount ⊢
    omega
  obtain ⟨used, grown, codes, rfl, hgrown, hlaid⟩ :=
    hhead.readGaps_sound (by rw [hlength]; exact hroom) List.getLast?_concat hinside hread
  rw [List.append_nil]
  exact ⟨grown, codes, by rw [hgrown, hlength], hlaid⟩

/-- Blocks that pass the check lay out a list, if they come behind whole blocks. -/
theorem checkBlocks_sound {entries : List (UInt32 × UInt32)} {block length : Nat}
    {gaps : List UInt8} {final : Option UInt32} (h : LaidOut list members code)
    (hroom : members.length + length < UInt32.size)
    (hwhole : entries ≠ [] → members.length % blockLength = 0)
    (hcount : entries.length = blocksFor length) (hgaps : gaps.length = gapTotal entries)
    (hfit : list.gaps.size + gaps.length < UInt32.size)
    (hcheck : checkBlocks block length list.last gaps entries = .ok final) :
    ∃ grown codes, LaidOut (list.extend length entries gaps final) grown codes := by
  -- the list grows by the blocks that were checked
  induction entries generalizing list members code block length gaps with
  | nil =>
    have hnone : length = 0 := by
      refine Nat.eq_zero_of_not_pos fun hpos => ?_
      have hblock := lt_blocksFor_iff.mpr (show 0 * blockLength < length by omega)
      rw [← hcount] at hblock
      exact absurd hblock (Nat.lt_irrefl 0)
    cases hcheck
    rw [hnone, List.eq_nil_of_length_eq_zero hgaps, extend_nil]
    exact ⟨members, code, h⟩
  | cons entry later ih =>
    obtain ⟨head, size⟩ := entry
    obtain ⟨hsome, hlater, hfull⟩ := blocksFor_sub hcount
    have hfirst := hwhole (List.cons_ne_nil _ _)
    rw [gapTotal_cons] at hgaps
    have hsize : size.toNat ≤ gaps.length := Nat.le.intro hgaps.symm
    have htaken : (gaps.take size.toNat).length = size.toNat := by
      rw [List.length_take, Nat.min_eq_left hsize]
    rw [checkBlocks] at hcheck
    obtain ⟨habove, hcheck⟩ := guard_eq_ok.mp hcheck
    obtain ⟨⟨value, left⟩, hread, hcheck⟩ := bind_eq_ok.mp hcheck
    obtain ⟨hleft, hcheck⟩ := guard_eq_ok.mp hcheck
    rw [List.eq_nil_of_length_eq_zero (not_not.mp hleft)] at hread
    obtain ⟨grown, codes, hlength, hgrown⟩ := h.pushBlock (h.lt_of_not_any habove) hfirst
      (Nat.lt_of_le_of_lt (Nat.le_add_right _ _) hfit)
      (by unfold blockLength; omega) (by omega) hread
    rw [← extend_pushGaps list hsome head size later hsize value]
    refine ih hgrown ?_ ?_ hlater ?_ ?_ hcheck
    · rw [hlength]
      unfold blockLength
      omega
    · intro hmore
      have hle := hfull (List.length_pos_iff.mpr hmore)
      rw [hlength, Nat.min_eq_right hle]
      unfold blockLength at hfirst ⊢
      omega
    · rw [List.length_drop, hgaps, Nat.add_sub_cancel_left]
    · rw [size_pushGaps, htaken, List.length_drop, Nat.add_assoc, Nat.add_sub_cancel' hsize]
      exact hfit

/-! ## What is laid out passes -/

/-- The gaps of members inside a block lead from member to member. -/
theorem readGaps_complete (h : LaidOut list members code) (index : Nat) {count : Nat}
    (hcount : index + count < members.length)
    (hinside : ∀ other, index < other → other ≤ index + count → other % blockLength ≠ 0)
    (rest : List UInt8) :
    readGaps count (members.getD index 0) (gapsFrom code (index + 1) count ++ rest)
      = .ok (members.getD (index + count) 0, rest) := by
  induction count generalizing index with
  | zero => rfl
  | succ count ih =>
    obtain ⟨hlt, hgap⟩ := toNat_gap h.ascending index (by omega)
    have htells := h.code_gap (index + 1) (by omega) (hinside _ (Nat.lt_succ_self _) (by omega))
    rw [Nat.add_sub_cancel] at htells
    have hpos : members.getD (index + 1) 0 - members.getD index 0 ≠ 0 := by
      rw [Ne, ← UInt32.toNat_inj, hgap, UInt32.toNat_zero]
      omega
    have hfits : ¬ UInt32.size ≤ (members.getD index 0).toNat
        + (members.getD (index + 1) 0 - members.getD index 0).toNat := by
      have := (members.getD (index + 1) 0).toNat_lt_size
      rw [hgap]
      omega
    have hnext : members.getD index 0 + (members.getD (index + 1) 0 - members.getD index 0)
        = members.getD (index + 1) 0 := by rw [UInt32.add_comm, UInt32.sub_add_cancel]
    rw [gapsFrom_succ, List.append_assoc, readGaps, htells]
    show (if members.getD (index + 1) 0 - members.getD index 0 = 0 then _ else
      if UInt32.size ≤ (members.getD index 0).toNat
        + (members.getD (index + 1) 0 - members.getD index 0).toNat then _ else
      readGaps count _ (List.drop (code (index + 1)).length _)) = _
    rw [if_neg hpos, if_neg hfits, List.drop_left, hnext,
      ih (index + 1) (by omega) (fun other hle hlt => hinside other (by omega) (by omega)),
      Nat.add_right_comm, Nat.add_assoc]

theorem toNat_blockStart (h : LaidOut list members code) {block : Nat}
    (hblock : block * blockLength < members.length) :
    (list.blockStart block).toNat = gapBytes code (block * blockLength) := by
  obtain ⟨start, hstart, hposition⟩ := h.blockStarts_getElem? hblock
  rw [blockStart, Array.getD_eq_getD_getElem?, hstart]
  exact hposition

/-- The gap bytes of a block end behind those of its members. -/
theorem toNat_blockStop (h : LaidOut list members code) (hfit : list.gaps.size < UInt32.size)
    (block : Nat) :
    (list.blockStop block).toNat
      = gapBytes code (min ((block + 1) * blockLength) members.length) := by
  rw [blockStop, Array.getD_eq_getD_getElem?]
  by_cases hnext : (block + 1) * blockLength < members.length
  · obtain ⟨start, hstart, hposition⟩ := h.blockStarts_getElem? hnext
    rw [hstart, Nat.min_eq_left (Nat.le_of_lt hnext)]
    exact hposition
  · have hnone : list.blockStarts[block + 1]? = none := by
      rw [← Array.getElem?_toList, h.blockStarts]
      refine List.getElem?_eq_none ?_
      rw [List.length_map, length_blockFirsts]
      exact Nat.le_of_not_lt (mt lt_blocksFor_iff.mp hnext)
    rw [hnone, Nat.min_eq_right (Nat.le_of_not_lt hnext), ← h.size_gaps]
    exact UInt32.toNat_ofNat_of_lt' hfit

/-- The gap bytes of a block are those of its members. -/
theorem toNat_blockBytes (h : LaidOut list members code) (hfit : list.gaps.size < UInt32.size)
    {block : Nat} (hblock : block * blockLength < members.length) :
    (list.blockBytes block).toNat
      = (gapsFrom code (block * blockLength)
        (min (members.length - block * blockLength) blockLength)).length := by
  have hstop := h.toNat_blockStop hfit block
  rw [block_end hblock, gapBytes_add, ← h.toNat_blockStart hblock] at hstop
  rw [blockBytes, UInt32.toNat_sub_of_le _ _ (by rw [UInt32.le_iff_toNat_le]; omega), hstop,
    Nat.add_sub_cancel_left]

/-- The entries of the first blocks announce the gap bytes of their members. -/
theorem gapTotal_blocks (h : LaidOut list members code) (hfit : list.gaps.size < UInt32.size)
    {count : Nat} (hcount : count ≤ blocksFor members.length) :
    gapTotal ((List.range count).map fun block => (list.head block, list.blockBytes block))
      = gapBytes code (min (count * blockLength) members.length) := by
  induction count with
  | zero =>
    rw [Nat.zero_mul, Nat.zero_min]
    rfl
  | succ block ih =>
    have hblock : block * blockLength < members.length := lt_blocksFor_iff.mp hcount
    rw [List.range_succ, List.map_append, gapTotal_append, ih (Nat.le_of_succ_le hcount),
      Nat.min_eq_left (Nat.le_of_lt hblock), block_end hblock, gapBytes_add,
      ← h.toNat_blockBytes hfit hblock]
    rfl

/-- The entries of a list announce its gap bytes. -/
theorem gapTotal_directory (h : LaidOut list members code)
    (hfit : list.gaps.size < UInt32.size) : gapTotal list.directory = list.gaps.size := by
  rw [directory, h.size_heads, h.gapTotal_blocks hfit (Nat.le_refl _), h.size_gaps]
  refine congrArg (gapBytes code) (Nat.min_eq_right (Nat.le_of_not_lt fun hlt => ?_))
  exact Nat.lt_irrefl _ (lt_blocksFor_iff.mpr hlt)

/-- The entries of a list give its block starts. -/
theorem startsOf_directory (h : LaidOut list members code)
    (hfit : list.gaps.size < UInt32.size) :
    startsOf 0 list.directory = list.blockStarts.toList := by
  have hblocks (count : Nat) (hcount : count ≤ blocksFor members.length) :
      startsOf 0 ((List.range count).map fun block => (list.head block, list.blockBytes block))
        = (List.range count).map fun block => UInt32.ofNat (gapBytes code (block * blockLength)) := by
    induction count with
    | zero => rfl
    | succ block ih =>
      have hblock : block * blockLength < members.length := lt_blocksFor_iff.mp hcount
      rw [List.range_succ, List.map_append, List.map_singleton, startsOf_concat,
        ih (Nat.le_of_succ_le hcount), h.gapTotal_blocks hfit (Nat.le_of_succ_le hcount),
        Nat.min_eq_left (Nat.le_of_lt hblock), UInt32.zero_add, List.map_append,
        List.map_singleton]
  rw [directory, h.size_heads, hblocks _ (Nat.le_refl _), h.blockStarts, blockFirsts,
    List.map_map]
  rfl

/-- The head of a block is greater than the members before the block. -/
theorem not_head_le (h : LaidOut list members code) {block : Nat}
    (hblock : block * blockLength < members.length) :
    ¬ (members.take (block * blockLength)).getLast?.any
      (members.getD (block * blockLength) 0 ≤ ·) = true := by
  rcases Nat.eq_zero_or_pos (block * blockLength) with hzero | hpos
  · rw [hzero, List.take_zero, List.getLast?_nil, Option.any_none]
    exact Bool.false_ne_true
  · rw [getLast?_take hpos (Nat.le_of_lt hblock), Option.any_some, decide_eq_true_iff,
      UInt32.not_le]
    exact getD_lt_getD h.ascending (by omega) hblock

/-- The gap bytes of a block lead from its head to its last member. -/
theorem readGaps_block (h : LaidOut list members code) {block : Nat}
    (hblock : block * blockLength < members.length) :
    readGaps (min (members.length - block * blockLength) blockLength - 1)
        (members.getD (block * blockLength) 0)
        (gapsFrom code (block * blockLength)
          (min (members.length - block * blockLength) blockLength))
      = .ok (members.getD (min ((block + 1) * blockLength) members.length - 1) 0, []) := by
  obtain ⟨count, hcount⟩ : ∃ count, min (members.length - block * blockLength) blockLength
      = count + 1 := Nat.exists_eq_add_one.mpr (by unfold blockLength at hblock ⊢; omega)
  have hmembers : block * blockLength + count < members.length := by omega
  have hinside : ∀ other, block * blockLength < other → other ≤ block * blockLength + count →
      other % blockLength ≠ 0 := by
    intro other hlt hle
    unfold blockLength at hcount hlt hle ⊢
    omega
  have hread := h.readGaps_complete (block * blockLength) hmembers hinside []
  rw [block_end hblock, hcount, Nat.add_sub_cancel, Nat.add_succ_sub_one, gapsFrom_succ,
    h.code_head _ hblock (Nat.mul_mod_left _ _), List.nil_append]
  rw [List.append_nil] at hread
  exact hread

/-- The entry of a block comes before those of the blocks behind it. -/
theorem drop_directory (h : LaidOut list members code) {block : Nat}
    (hblock : block * blockLength < members.length) :
    list.directory.drop block = (members.getD (block * blockLength) 0, list.blockBytes block)
      :: list.directory.drop (block + 1) := by
  have hsize := (h.lt_size_heads_iff block).mpr hblock
  have hlt : block < list.directory.length := by
    rw [length_directory]
    exact hsize
  rw [List.drop_eq_getElem_cons hlt, ← h.head_eq hsize]
  simp only [directory, List.getElem_map, List.getElem_range]

/-- The blocks of a laid out list pass the check. -/
theorem checkBlocks_complete (h : LaidOut list members code)
    (hfit : list.gaps.size < UInt32.size) (block : Nat) {left : Nat}
    (hleft : block + left = blocksFor members.length) :
    checkBlocks block (members.length - block * blockLength)
        (members.take (block * blockLength)).getLast?
        (gapsFrom code (block * blockLength) (members.length - block * blockLength))
        (list.directory.drop block)
      = .ok members.getLast? := by
  induction left generalizing block with
  | zero =>
    have hall : members.length ≤ block * blockLength :=
      Nat.le_of_not_lt (mt lt_blocksFor_iff.mpr (by omega))
    have hnone : list.directory.drop block = [] := by
      refine List.drop_eq_nil_of_le ?_
      rw [length_directory, h.size_heads]
      omega
    rw [hnone, checkBlocks, List.take_of_length_le hall]
  | succ left ih =>
    have hblock : block * blockLength < members.length := lt_blocksFor_iff.mp (by omega)
    have hlast : (members.take ((block + 1) * blockLength)).getLast?
        = some (members.getD (min ((block + 1) * blockLength) members.length - 1) 0) := by
      rw [List.take_eq_take_min]
      exact getLast?_take (by unfold blockLength at hblock ⊢; omega) (Nat.min_le_right _ _)
    have hlater := ih (block + 1) (by omega)
    rw [hlast] at hlater
    rw [h.drop_directory hblock, checkBlocks, if_neg (h.not_head_le hblock),
      h.toNat_blockBytes hfit hblock, gapsFrom_block code members.length block, List.take_left,
      List.drop_left, h.readGaps_block hblock]
    show checkBlocks (block + 1) (members.length - block * blockLength - blockLength) _ _ _ = _
    rw [Nat.sub_sub, ← Nat.succ_mul]
    exact hlater

end LaidOut

end Concordance.GapList
