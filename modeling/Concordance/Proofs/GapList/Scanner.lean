import Concordance.GapList.Scanner
import Concordance.Proofs.GapList.Directory

/-!
# No step of a scan goes wrong

On bytes of which there are fewer than 2^63, a scan finds what `decode` finds, or refuses the bytes
for the same reason (`scan_eq`). So none of its look-ups misses, no difference falls below zero and
no sum needs more than 64 bits, whatever the bytes are.

Each loop is compared with the recursion of `decode` from any point on. What carries the comparison
is that a position is never behind the end of what is read, that block starts are the sums of the
gap bytes before, and that there are as many heads and starts as blocks.
-/

namespace Concordance

namespace Halt

variable {α : Type}

theorem orRefused_ok (value : α) : orRefused (.ok value) = .ok value := rfl

theorem lookUp_eq {numbers : Array UInt32} {index : Nat} {number : UInt32}
    (h : numbers[index]? = some number) : lookUp numbers index = .ok number := by
  rw [lookUp, h]

theorem subtract_eq {number taken : Nat} (h : taken ≤ number) :
    subtract number taken = .ok (number - taken) := if_pos h

theorem within64_eq {number : Nat} (h : number < UInt64.size) : within64 number = .ok number :=
  if_pos h

end Halt

namespace GapList

open Halt

/-! ## The directory -/

/-- A listing with the blocks that are read after it. -/
def Listing.extend (listing : Listing) (position : Nat) (directory : Directory) : Listing where
  position
  heads := listing.heads ++ directory.entries.map (·.1)
  blockStarts := listing.blockStarts ++ startsOf listing.gapBytes directory.entries
  gapBytes := UInt32.ofNat directory.gapBytes

theorem Listing.extend_push (listing : Listing) (position between : Nat) (head size : UInt32)
    (directory : Directory) :
    (listing.push between head size).extend position directory
      = listing.extend position { directory with entries := (head, size) :: directory.entries } := by
  simp [extend, push, startsOf]

variable {bytes : List UInt8}

/-- Scanning entries is reading a directory. -/
theorem scanEntries_eq (hbytes : bytes.length < UInt64.size) (count : Nat) {listing : Listing}
    (hposition : listing.position ≤ bytes.length) :
    scanEntries bytes count listing
      = (orRefused (readDirectory count listing.gapBytes.toNat (bytes.drop listing.position))).map
        fun directory => listing.extend (bytes.length - directory.rest.length) directory := by
  induction count generalizing listing with
  | zero =>
    have hend : bytes.length - (bytes.drop listing.position).length = listing.position := by
      rw [List.length_drop]
      omega
    rw [scanEntries, readDirectory, orRefused_ok, Except.map, hend]
    refine congrArg Except.ok ?_
    simp [Listing.extend, startsOf]
  | succ count ih =>
    rw [scanEntries, scanEntry, readDirectory]
    cases hhead : Varint.decode32 (bytes.drop listing.position) with
    | error cause => rfl
    | ok result =>
      obtain ⟨head, headUsed⟩ := result
      have hheadUsed := Varint.used_le hhead
      rw [List.length_drop] at hheadUsed
      simp only [orRefused_ok, ok_bind, List.drop_drop]
      rw [within64_eq (by omega), ok_bind]
      cases hsize : Varint.decode32 (bytes.drop (listing.position + headUsed)) with
      | error cause => rfl
      | ok result =>
        obtain ⟨size, sizeUsed⟩ := result
        have hsizeUsed := Varint.used_le hsize
        rw [List.length_drop] at hsizeUsed
        simp only [orRefused_ok, ok_bind]
        rw [within64_eq (by omega), ok_bind]
        by_cases hfit : UInt32.size ≤ listing.gapBytes.toNat + size.toNat
        · rw [if_pos hfit, if_pos hfit]
          rfl
        · have hgapBytes :
              (listing.gapBytes + size).toNat = listing.gapBytes.toNat + size.toNat := by
            rw [UInt32.toNat_add]
            exact Nat.mod_eq_of_lt (Nat.lt_of_not_le hfit)
          have hbehind : (listing.push (listing.position + headUsed + sizeUsed) head size).position
              ≤ bytes.length := by
            show listing.position + headUsed + sizeUsed ≤ bytes.length
            omega
          rw [if_neg hfit, if_neg hfit, pure_bind, ih hbehind]
          show (orRefused (readDirectory count (listing.gapBytes + size).toNat
            (bytes.drop (listing.position + headUsed + sizeUsed)))).map _ = _
          rw [hgapBytes]
          cases readDirectory count (listing.gapBytes.toNat + size.toNat)
            (bytes.drop (listing.position + headUsed + sizeUsed)) with
          | error cause => rfl
          | ok directory => exact congrArg Except.ok (listing.extend_push _ _ head size directory)

/-! ## Blocks -/

/-- What is left of a block is no more than the block. -/
theorem length_le_of_readGaps {count : Nat} {value final : UInt32} {bytes left : List UInt8}
    (h : readGaps count value bytes = .ok (final, left)) : left.length ≤ bytes.length := by
  induction count generalizing value bytes with
  | zero =>
    cases h
    exact Nat.le_refl _
  | succ count ih =>
    rw [readGaps] at h
    obtain ⟨⟨gap, used⟩, -, h⟩ := bind_eq_ok.mp h
    obtain ⟨-, h⟩ := guard_eq_ok.mp h
    obtain ⟨-, h⟩ := guard_eq_ok.mp h
    have hle := ih h
    rw [List.length_drop] at hle
    omega

/-- Scanning gaps is reading them from the part of a block that is left. -/
theorem scanGaps_eq {gaps : List UInt8} (hgaps : gaps.length < UInt64.size) {stop : Nat}
    (hstop : stop ≤ gaps.length) (count : Nat) {position : Nat} (hposition : position ≤ stop)
    (value : UInt32) :
    scanGaps gaps stop count position value
      = (orRefused (readGaps count value ((gaps.take stop).drop position))).map
        fun (final, left) => (stop - left.length, final) := by
  induction count generalizing position value with
  | zero =>
    have hend : stop - ((gaps.take stop).drop position).length = position := by
      rw [List.length_drop, List.length_take]
      omega
    show Except.ok (position, value) = Except.ok (stop - _, value)
    rw [hend]
  | succ count ih =>
    have hbytes : bytesFrom gaps position stop = (gaps.take stop).drop position :=
      if_pos ⟨hposition, hstop⟩
    rw [scanGaps, readGaps, hbytes]
    cases hgap : Varint.decode32 ((gaps.take stop).drop position) with
    | error cause => rfl
    | ok result =>
      obtain ⟨gap, used⟩ := result
      have hused := Varint.used_le hgap
      rw [List.length_drop, List.length_take] at hused
      simp only [orRefused_ok, ok_bind, List.drop_drop]
      rw [within64_eq (by omega), ok_bind]
      by_cases hzero : gap = 0
      · rw [if_pos hzero, if_pos hzero]
        rfl
      · rw [if_neg hzero, if_neg hzero]
        by_cases hfit : UInt32.size ≤ value.toNat + gap.toNat
        · rw [if_pos hfit, if_pos hfit]
          rfl
        · rw [if_neg hfit, if_neg hfit]
          exact ih (by omega) (value + gap)

/-- A listing tells the blocks of a directory. -/
structure Listing.Tells (listing : Listing) (entries : List (UInt32 × UInt32)) : Prop where
  heads : listing.heads = (entries.map (·.1)).toArray
  blockStarts : listing.blockStarts = (startsOf 0 entries).toArray
  gapBytes : listing.gapBytes.toNat = gapTotal entries

namespace Listing.Tells

variable {listing : Listing} {before later : List (UInt32 × UInt32)} {head size : UInt32}

theorem getElem?_heads (h : listing.Tells (before ++ (head, size) :: later)) :
    listing.heads[before.length]? = some head := by
  simp [h.heads]

/-- The gap bytes of all blocks but some of the first fit 32 bits. -/
theorem gapTotal_lt (h : listing.Tells (before ++ later)) : gapTotal before < UInt32.size := by
  have hlt := listing.gapBytes.toNat_lt_size
  rw [h.gapBytes, gapTotal_append] at hlt
  omega

/-- Behind the first blocks, the block starts are those of the others. -/
theorem getElem?_blockStarts (h : listing.Tells (before ++ later)) (index : Nat) :
    listing.blockStarts[before.length + index]?
      = (startsOf (UInt32.ofNat (gapTotal before)) later)[index]? := by
  have hle : (startsOf 0 before).length ≤ before.length + index := by
    rw [length_startsOf]
    exact Nat.le_add_right _ _
  rw [h.blockStarts, List.getElem?_toArray, startsOf_append, List.getElem?_append_right hle,
    length_startsOf, Nat.add_sub_cancel_left, UInt32.zero_add]

/-- A block starts behind the gap bytes of those before. -/
theorem exists_start (h : listing.Tells (before ++ (head, size) :: later)) :
    ∃ start, listing.blockStarts[before.length]? = some start ∧ start.toNat = gapTotal before :=
  ⟨_, h.getElem?_blockStarts 0, UInt32.toNat_ofNat_of_lt' h.gapTotal_lt⟩

/-- A block stops where the next one starts, or at the end. -/
theorem toNat_stop (h : listing.Tells (before ++ (head, size) :: later)) :
    (listing.blockStarts[before.length + 1]?.getD listing.gapBytes).toNat
      = gapTotal before + size.toNat := by
  rw [h.getElem?_blockStarts 1, startsOf, List.getElem?_cons_succ]
  cases later with
  | nil =>
    rw [startsOf, List.getElem?_nil, Option.getD_none, h.gapBytes, gapTotal_append, gapTotal_cons]
    rfl
  | cons next later =>
    have hnext : listing.Tells ((before ++ [(head, size)]) ++ next :: later) := by
      rw [List.append_assoc]
      exact h
    have hfit : gapTotal before + size.toNat < UInt32.size := by
      have hlt := hnext.gapTotal_lt
      rw [gapTotal_append, gapTotal_cons] at hlt
      exact hlt
    rw [startsOf, List.getElem?_cons_zero, Option.getD_some, UInt32.toNat_add,
      UInt32.toNat_ofNat_of_lt' h.gapTotal_lt]
    exact Nat.mod_eq_of_lt hfit

end Listing.Tells

/-- Reads a block whose head and bytes are given: its last member. -/
def checkBlock (block count : Nat) (last : Option UInt32) (head : UInt32) (bytes : List UInt8) :
    Except DecodeError UInt32 := do
  if last.any (head ≤ ·) then throw (.headNotAscending block head)
  let (value, left) ← readGaps count head bytes
  if left.length ≠ 0 then throw (.trailingBytes block left.length)
  return value

theorem checkBlocks_cons (block length : Nat) (last : Option UInt32) (gaps : List UInt8)
    (head size : UInt32) (later : List (UInt32 × UInt32)) :
    checkBlocks block length last gaps ((head, size) :: later)
      = checkBlock block (min length blockLength - 1) last head (gaps.take size.toNat) >>=
        fun value => checkBlocks (block + 1) (length - blockLength) (some value)
          (gaps.drop size.toNat) later := by
  rw [checkBlocks, checkBlock]
  by_cases hhead : last.any (head ≤ ·) = true
  · rw [if_pos hhead, if_pos hhead]
    rfl
  · rw [if_neg hhead, if_neg hhead]
    cases readGaps (min length blockLength - 1) head (gaps.take size.toNat) with
    | error cause => rfl
    | ok result =>
      simp only [ok_bind]
      by_cases hleft : result.2.length ≠ 0
      · rw [if_pos hleft, if_pos hleft]
        rfl
      · rw [if_neg hleft, if_neg hleft]
        rfl

variable {length : UInt32} {listing : Listing} {gaps : List UInt8}
  {before later : List (UInt32 × UInt32)} {head size : UInt32}

/-- Scanning a block is reading it from its bytes. -/
theorem scanBlock_eq (h : listing.Tells (before ++ (head, size) :: later))
    (hgaps : gaps.length = listing.gapBytes.toNat)
    (hlength : before.length * blockLength < length.toNat) (last : Option UInt32) :
    scanBlock length listing gaps before.length last
      = orRefused (checkBlock before.length
        (min (length.toNat - before.length * blockLength) blockLength - 1) last head
        ((gaps.drop (gapTotal before)).take size.toNat)) := by
  have hlarge : length.toNat < UInt64.size := Nat.lt_trans length.toNat_lt (by decide)
  have hsmall : gaps.length < UInt64.size := by
    rw [hgaps]
    exact Nat.lt_trans listing.gapBytes.toNat_lt (by decide)
  have hstop : gapTotal before + size.toNat ≤ gaps.length := by
    rw [hgaps, h.gapBytes, gapTotal_append, gapTotal_cons, ← Nat.add_assoc]
    exact Nat.le_add_right _ _
  have hbytes : (gaps.take (gapTotal before + size.toNat)).drop (gapTotal before)
      = (gaps.drop (gapTotal before)).take size.toNat := by
    rw [List.drop_take, Nat.add_sub_cancel_left]
  have hnext : before.length + 1 < UInt64.size := by
    unfold blockLength at hlength
    omega
  obtain ⟨start, hstart, hplace⟩ := h.exists_start
  rw [scanBlock, within64_eq (Nat.lt_trans hlength hlarge), ok_bind,
    subtract_eq (Nat.le_of_lt hlength), ok_bind, within64_eq hnext, ok_bind, lookUp_eq hstart,
    ok_bind, lookUp_eq h.getElem?_heads, ok_bind, h.toNat_stop, hplace, checkBlock]
  by_cases hhead : last.any (head ≤ ·) = true
  · rw [if_pos hhead, if_pos hhead]
    rfl
  · rw [if_neg hhead, if_neg hhead, scanGaps_eq hsmall hstop _ (Nat.le_add_right _ _), hbytes]
    cases hread : readGaps (min (length.toNat - before.length * blockLength) blockLength - 1) head
        ((gaps.drop (gapTotal before)).take size.toNat) with
    | error cause => rfl
    | ok result =>
      obtain ⟨value, left⟩ := result
      have hle := length_le_of_readGaps hread
      rw [List.length_take] at hle
      show (if gapTotal before + size.toNat - left.length ≠ gapTotal before + size.toNat then _
        else _) = orRefused (if left.length ≠ 0 then _ else _)
      by_cases hleft : left.length = 0
      · rw [hleft, if_neg (by simp), if_neg (by simp)]
        rfl
      · have hpart : gapTotal before + size.toNat
            - (gapTotal before + size.toNat - left.length) = left.length := by
          omega
        rw [if_pos (by omega), if_pos hleft, subtract_eq (Nat.sub_le _ _), ok_bind, hpart]
        rfl

/-- Scanning blocks is reading them from their bytes. -/
theorem scanBlocks_eq (h : listing.Tells (before ++ later))
    (hgaps : gaps.length = listing.gapBytes.toNat)
    (hcount : (before ++ later).length = blocksFor length.toNat) (last : Option UInt32) :
    scanBlocks length listing gaps later.length before.length last
      = orRefused (checkBlocks before.length (length.toNat - before.length * blockLength) last
        (gaps.drop (gapTotal before)) later) := by
  induction later generalizing before last with
  | nil => rfl
  | cons entry later ih =>
    obtain ⟨head, size⟩ := entry
    have hlength : before.length * blockLength < length.toNat := by
      rw [List.length_append, List.length_cons] at hcount
      unfold blocksFor blockLength at hcount
      unfold blockLength
      omega
    rw [List.length_cons, scanBlocks, scanBlock_eq h hgaps hlength, checkBlocks_cons]
    cases checkBlock before.length (min (length.toNat - before.length * blockLength) blockLength - 1)
        last head ((gaps.drop (gapTotal before)).take size.toNat) with
    | error cause => rfl
    | ok value =>
      have hsize : (before ++ [(head, size)]).length = before.length + 1 := List.length_append
      have htotal : gapTotal (before ++ [(head, size)]) = gapTotal before + size.toNat := by
        rw [gapTotal_append, gapTotal_cons]
        rfl
      have hrest : length.toNat - (before.length + 1) * blockLength
          = length.toNat - before.length * blockLength - blockLength := by
        rw [Nat.add_mul, Nat.one_mul, Nat.sub_sub]
      rw [List.append_cons] at h hcount
      have hnext := ih h hcount (some value)
      rw [hsize, htotal, hrest, ← List.drop_drop] at hnext
      exact hnext

theorem scanBlocks_all {entries : List (UInt32 × UInt32)} (h : listing.Tells entries)
    (hgaps : gaps.length = listing.gapBytes.toNat)
    (hcount : entries.length = blocksFor length.toNat) :
    scanBlocks length listing gaps entries.length 0 none
      = orRefused (checkBlocks 0 length.toNat none gaps entries) :=
  @scanBlocks_eq length listing gaps [] entries h hgaps hcount none

/-! ## The list -/

/-- A listing is what is scanned of a directory. -/
structure Listing.Shows (listing : Listing) (bytes : List UInt8) (directory : Directory) : Prop where
  tells : listing.Tells directory.entries
  gapBytes : listing.gapBytes.toNat = directory.gapBytes
  position : listing.position + directory.rest.length = bytes.length
  rest : bytes.drop listing.position = directory.rest

/-- A directory that is read is scanned. -/
theorem exists_shows (hbytes : bytes.length < UInt64.size) {position count : Nat}
    (hposition : position ≤ bytes.length) {directory : Directory}
    (h : readDirectory count 0 (bytes.drop position) = .ok directory) :
    ∃ listing, scanEntries bytes count ⟨position, #[], #[], 0⟩ = .ok listing
      ∧ listing.Shows bytes directory := by
  have hscan := @scanEntries_eq bytes hbytes count ⟨position, #[], #[], 0⟩ hposition
  rw [UInt32.toNat_zero, h] at hscan
  refine ⟨_, hscan, ?_⟩
  obtain ⟨written, hwritten, -, -, htotal, hfit⟩ := readDirectory_sound (by decide) h
  rw [Nat.zero_add] at htotal
  have hsuffix : directory.rest <:+ bytes := by
    refine List.IsSuffix.trans ?_ (List.drop_suffix position bytes)
    rw [hwritten]
    exact List.suffix_append written directory.rest
  have hgapBytes : (UInt32.ofNat directory.gapBytes).toNat = directory.gapBytes :=
    UInt32.toNat_ofNat_of_lt' hfit
  exact {
    tells :=
      { heads := by simp [Listing.extend]
        blockStarts := by simp [Listing.extend]
        gapBytes := hgapBytes.trans htotal }
    gapBytes := hgapBytes
    position := Nat.sub_add_cancel hsuffix.length_le
    rest := (List.suffix_iff_eq_drop.mp hsuffix).symm }

/-- No step of a scan goes wrong: it finds the list that is read, or refuses the bytes for the same
reason. -/
theorem scan_eq (h : bytes.length < 2 ^ 63) : scan bytes = orRefused (decode bytes) := by
  have hbytes : bytes.length < UInt64.size := Nat.lt_trans h (by decide)
  rw [scan, decode]
  cases hlength : Varint.decode32 bytes with
  | error cause => rfl
  | ok result =>
    obtain ⟨length, position⟩ := result
    have hposition := Varint.used_le hlength
    simp only [orRefused_ok, ok_bind]
    rw [List.length_drop]
    by_cases hblocks : bytes.length - position < blocksFor length.toNat
    · rw [if_pos hblocks, if_pos hblocks]
      rfl
    rw [if_neg hblocks, if_neg hblocks]
    show (scanEntries bytes (blocksFor length.toNat) ⟨position, #[], #[], 0⟩ >>= _)
      = orRefused (readDirectory (blocksFor length.toNat) 0 (bytes.drop position) >>= _)
    cases hdirectory : readDirectory (blocksFor length.toNat) 0 (bytes.drop position) with
    | error cause =>
      have hscan :=
        @scanEntries_eq bytes hbytes (blocksFor length.toNat) ⟨position, #[], #[], 0⟩ hposition
      rw [UInt32.toNat_zero, hdirectory] at hscan
      rw [hscan]
      rfl
    | ok directory =>
      obtain ⟨listing, hscan, htells, hgapBytes, hplace, hrest⟩ :=
        exists_shows hbytes hposition hdirectory
      obtain ⟨-, -, -, hcount, -⟩ := readDirectory_sound (by decide) hdirectory
      have hfit := listing.gapBytes.toNat_lt_size
      have hroom : 2 ^ 63 + UInt32.size < UInt64.size := by decide
      rw [hscan, ok_bind, ok_bind, hgapBytes, within64_eq (by omega), ok_bind]
      by_cases htruncated : directory.rest.length < directory.gapBytes
      · rw [if_pos (by omega), if_pos htruncated]
        rfl
      have hstop : bytes.length - directory.rest.length = listing.position := by
        omega
      have hgaps : (bytes.take (listing.position + directory.gapBytes)).drop listing.position
          = directory.rest.take directory.gapBytes := by
        rw [List.drop_take, hrest, Nat.add_sub_cancel_left]
      have htaken : (directory.rest.take directory.gapBytes).length = listing.gapBytes.toNat := by
        rw [hgapBytes]
        exact List.length_take_of_le (Nat.le_of_not_lt htruncated)
      rw [if_neg (by omega), if_neg htruncated, hgaps, ← hcount,
        scanBlocks_all htells htaken hcount, htells.heads, htells.blockStarts, hstop]
      cases checkBlocks 0 length.toNat none (directory.rest.take directory.gapBytes)
          directory.entries with
      | error cause => rfl
      | ok last => rfl

end GapList

end Concordance
